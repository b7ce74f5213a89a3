import Mathlib.Algebra.BigOperators.Group.List.Basic
import Mathlib.Algebra.Order.Ring.Nat
import Mathlib.Data.List.SplitBy

/-! Metering a counter that is reset now and then.

A meter sees samples of a counter. Between two samples it adds the difference,
or, when the later sample *breaks* the count (the counter was reset in between),
the whole later value. The samples fall into *epochs*, maximal runs without a
break. `meter_eq_epochTotal` says what the meter adds up: the rise within the
first epoch and the last value of each later one, so that within an epoch only
the first and the last sample count (`meter_append_of_unbroken`). -/
namespace NodeGet.Data.Meter

variable {α : Type*} (count : α → Nat) (breaks : α → α → Bool)

def increase (a b : α) : Nat := if breaks a b then count b else count b - count a

/-- What the samples add after a first one. -/
def meterFrom (prev : α) : List α → Nat
  | [] => 0
  | x :: rest => increase count breaks prev x + meterFrom x rest

def meter : List α → Nat
  | [] => 0
  | x :: rest => meterFrom count breaks x rest

/-- The maximal runs of samples without a break. -/
def epochs (samples : List α) : List (List α) := samples.splitBy fun a b => !breaks a b

def first (epoch : List α) : Nat := (epoch.head?.map count).getD 0

def last (epoch : List α) : Nat := (epoch.getLast?.map count).getD 0

/-- The rise within the first epoch and the last value of each later one. -/
def epochTotal : List (List α) → Nat
  | [] => 0
  | epoch :: later => (last count epoch - first count epoch) + (later.map (last count)).sum

variable {count breaks}

theorem meterFrom_append (prev : α) (a b : List α) :
    meterFrom count breaks prev (a ++ b) =
      meterFrom count breaks prev a + meterFrom count breaks (a.getLastD prev) b := by
  induction a generalizing prev with
  | nil => simp [meterFrom]
  | cons x rest ih =>
    simp only [List.cons_append, meterFrom, ih, List.getLastD_cons]
    omega

/-- One more sample adds its increase over the sample before it. -/
theorem meter_concat (samples : List α) (x : α) :
    meter count breaks (samples ++ [x]) =
      meter count breaks samples + samples.getLast?.elim 0 fun prev => increase count breaks prev x := by
  cases samples with
  | nil => rfl
  | cons a rest =>
    simp [meter, meterFrom_append, meterFrom, List.getLast?_cons, List.getLastD_eq_getLast?]

theorem last_cons (x : α) (rest : List α) : last count (x :: rest) = count (rest.getLastD x) := by
  simp [last, List.getLast?_cons, List.getLastD_eq_getLast?]

/-- Where an epoch ends and another begins there is a break. -/
theorem breaks_of_next_epoch {x : α} {rest : List α} {later : List (List α)}
    (hne : ∀ epoch ∈ later, epoch ≠ [])
    (h : ((x :: rest) :: later).IsChain fun a b => ∃ ha hb, breaks (a.getLast ha) (b.head hb) = true) :
    ∀ y ∈ later.flatten.head?, breaks (rest.getLastD x) y = true := by
  cases later with
  | nil => simp
  | cons epoch later =>
    obtain ⟨y, ys, rfl⟩ := List.exists_cons_of_ne_nil (hne epoch (List.mem_cons_self ..))
    obtain ⟨⟨_, _, hy⟩, -⟩ := List.isChain_cons_cons.mp h
    simpa [List.getLast_eq_getLastD] using hy

section
variable (hmono : ∀ a b, breaks a b = false → count a ≤ count b)
include hmono

/-- Without a break the differences telescope. -/
theorem meterFrom_unbroken (prev : α) (rest : List α)
    (h : (prev :: rest).IsChain fun a b => breaks a b = false) :
    meterFrom count breaks prev rest + count prev = count (rest.getLastD prev) := by
  induction rest generalizing prev with
  | nil => simp [meterFrom]
  | cons x rest ih =>
    obtain ⟨hx, hrest⟩ := List.isChain_cons_cons.mp h
    have hle := hmono prev x hx
    have hih := ih x hrest
    rw [List.getLastD_cons, ← hih]
    simp only [meterFrom, increase, hx, Bool.false_eq_true, if_false]
    omega

/-- After a break an epoch adds its last value. -/
theorem meterFrom_epoch (prev x : α) (rest : List α) (hbreak : breaks prev x = true)
    (h : (x :: rest).IsChain fun a b => breaks a b = false) :
    meterFrom count breaks prev (x :: rest) = last count (x :: rest) := by
  have htel := meterFrom_unbroken hmono x rest h
  rw [last_cons, ← htel]
  simp only [meterFrom, increase, hbreak, if_true]
  omega

/-- Later epochs add their last values, one after the other. -/
theorem meterFrom_flatten (prev : α) (later : List (List α)) (hne : ∀ epoch ∈ later, epoch ≠ [])
    (hchain : ∀ epoch ∈ later, epoch.IsChain fun a b => breaks a b = false)
    (hbreak : ∀ x ∈ later.flatten.head?, breaks prev x = true)
    (hbreaks : later.IsChain fun a b => ∃ ha hb, breaks (a.getLast ha) (b.head hb) = true) :
    meterFrom count breaks prev later.flatten = (later.map (last count)).sum := by
  induction later generalizing prev with
  | nil => rfl
  | cons epoch later ih =>
    obtain ⟨x, rest, rfl⟩ := List.exists_cons_of_ne_nil (hne epoch (List.mem_cons_self ..))
    have hx : breaks prev x = true := hbreak x (by simp)
    have hlater := breaks_of_next_epoch (fun e he => hne e (List.mem_cons_of_mem _ he)) hbreaks
    rw [List.flatten_cons, meterFrom_append, List.map_cons, List.sum_cons,
      meterFrom_epoch hmono prev x rest hx (hchain _ (List.mem_cons_self ..)), List.getLastD_cons,
      ih _ (fun e he => hne e (List.mem_cons_of_mem _ he))
        (fun e he => hchain e (List.mem_cons_of_mem _ he)) hlater hbreaks.of_cons]

/-- **The meter adds up the epochs**: the rise within the first and the last value
of each later one. -/
theorem meter_eq_epochTotal (samples : List α) :
    meter count breaks samples = epochTotal count (epochs breaks samples) := by
  have hflat : (epochs breaks samples).flatten = samples := List.flatten_splitBy _ samples
  have hne : ∀ epoch ∈ epochs breaks samples, epoch ≠ [] := fun _ h => List.ne_nil_of_mem_splitBy h
  have hchain : ∀ epoch ∈ epochs breaks samples, epoch.IsChain fun a b => breaks a b = false :=
    fun _ h => (List.isChain_of_mem_splitBy h).imp fun _ _ => by simp
  have hbreaks : (epochs breaks samples).IsChain
      fun a b => ∃ ha hb, breaks (a.getLast ha) (b.head hb) = true :=
    (List.isChain_getLast_head_splitBy (fun a b => !breaks a b) samples).imp fun _ _ => by simp
  generalize epochs breaks samples = all at hflat hne hchain hbreaks
  subst hflat
  cases all with
  | nil => rfl
  | cons epoch later =>
    obtain ⟨x, rest, rfl⟩ := List.exists_cons_of_ne_nil (hne epoch (List.mem_cons_self ..))
    have hlater : ∀ e ∈ later, e ≠ [] := fun e he => hne e (List.mem_cons_of_mem _ he)
    have hrise := meterFrom_unbroken hmono x rest (hchain _ (List.mem_cons_self ..))
    have hrest := meterFrom_flatten hmono (rest.getLastD x) later hlater
      (fun e he => hchain e (List.mem_cons_of_mem _ he)) (breaks_of_next_epoch hlater hbreaks)
      hbreaks.of_cons
    calc meter count breaks ((x :: rest) :: later).flatten
        = meterFrom count breaks x rest + meterFrom count breaks (rest.getLastD x) later.flatten := by
          rw [List.flatten_cons, List.cons_append, meter, meterFrom_append]
      _ = (last count (x :: rest) - first count (x :: rest)) + (later.map (last count)).sum := by
          rw [hrest, last_cons, first, List.head?_cons, Option.map_some, Option.getD_some, ← hrise]
          omega

/-- Samples between two others of one epoch do not count. -/
theorem meterFrom_between (prev q : α) (mid : List α)
    (h : (prev :: (mid ++ [q])).IsChain fun a b => breaks a b = false) :
    meterFrom count breaks prev (mid ++ [q]) = count q - count prev := by
  have htel := meterFrom_unbroken hmono prev (mid ++ [q]) h
  rw [List.getLastD_concat] at htel
  omega

/-- Other samples inside an epoch give the same reading of the meter. -/
theorem meter_inside_epoch (pre post : List α) (p q : α) (mid mid' : List α)
    (h : (p :: (mid ++ [q])).IsChain fun a b => breaks a b = false)
    (h' : (p :: (mid' ++ [q])).IsChain fun a b => breaks a b = false) :
    meter count breaks (pre ++ p :: (mid ++ q :: post)) =
      meter count breaks (pre ++ p :: (mid' ++ q :: post)) := by
  have hbetween : ∀ m : List α, (p :: (m ++ [q])).IsChain (fun a b => breaks a b = false) →
      meterFrom count breaks p (m ++ q :: post) = (count q - count p) + meterFrom count breaks q post := by
    intro m hm
    rw [List.append_cons, meterFrom_append p (m ++ [q]), meterFrom_between hmono p q m hm,
      List.getLastD_concat]
  have hfrom := (hbetween mid h).trans (hbetween mid' h').symm
  cases pre with
  | nil => exact hfrom
  | cons x pre =>
    simp only [List.cons_append, meter, meterFrom_append, meterFrom, hfrom]

end

end NodeGet.Data.Meter
