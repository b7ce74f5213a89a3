import Mathlib.Logic.Basic

/-! Programs over a state that may fail.

What a program has done stays done when it fails: there is no transaction around it. A caller
passes the failure on (`bind`) or looks at it (`attempt`). So what is said of the state after a
program is said of the state after its failures too: `Ensures` leads from a condition on the
state before to one on the state after, and `Keeps` says what a program leaves unchanged. -/
namespace NodeGet.Machine

structure Program (σ ε α : Type) where
  run : σ → Except ε α × σ

namespace Program
variable {σ ε ε' α β γ : Type}

instance : Monad (Program σ ε) where
  pure a := ⟨fun s => (.ok a, s)⟩
  bind m k := ⟨fun s =>
    match m.run s with
    | (.ok a, t) => (k a).run t
    | (.error e, t) => (.error e, t)⟩

def fail (e : ε) : Program σ ε α := ⟨fun s => (.error e, s)⟩

def read (f : σ → α) : Program σ ε α := ⟨fun s => (.ok (f s), s)⟩

def write (g : σ → σ) : Program σ ε Unit := ⟨fun s => (.ok (), g s)⟩

def ofExcept (outcome : Except ε α) : Program σ ε α := ⟨fun s => (outcome, s)⟩

/-- The outcome as a value, a failure too. -/
def attempt (m : Program σ ε α) : Program σ ε' (Except ε α) := ⟨fun s => (.ok (m.run s).1, (m.run s).2)⟩

/-! ### Evaluation -/

@[simp] theorem isOk_ok (a : α) : (Except.ok a : Except ε α).isOk = true := rfl

@[simp] theorem isOk_error (e : ε) : (Except.error e : Except ε α).isOk = false := rfl

@[simp] theorem run_pure (a : α) (s : σ) : (pure a : Program σ ε α).run s = (.ok a, s) := rfl

@[simp] theorem run_fail (e : ε) (s : σ) : (fail e : Program σ ε α).run s = (.error e, s) := rfl

@[simp] theorem run_read (f : σ → α) (s : σ) : (read f : Program σ ε α).run s = (.ok (f s), s) := rfl

@[simp] theorem run_write (g : σ → σ) (s : σ) : (write g : Program σ ε Unit).run s = (.ok (), g s) := rfl

theorem run_bind (m : Program σ ε α) (k : α → Program σ ε β) (s : σ) :
    (m >>= k).run s = match m.run s with
      | (.ok a, t) => (k a).run t
      | (.error e, t) => (.error e, t) := rfl

@[simp] theorem run_attempt_bind (m : Program σ ε α) (k : Except ε α → Program σ ε' β) (s : σ) :
    (attempt m >>= k).run s = (k (m.run s).1).run (m.run s).2 := rfl

variable {m : Program σ ε α} {k : α → Program σ ε β} {s t : σ}

theorem run_bind_of_ok {a : α} (h : m.run s = (.ok a, t)) : (m >>= k).run s = (k a).run t := by
  rw [run_bind, h]

theorem run_bind_of_error {e : ε} (h : m.run s = (.error e, t)) : (m >>= k).run s = (.error e, t) := by
  rw [run_bind, h]

/-- A last part that leaves the state alone. -/
theorem run_bind_snd (hk : ∀ a s, ((k a).run s).2 = s) (s : σ) : ((m >>= k).run s).2 = (m.run s).2 := by
  rw [run_bind]
  split
  next a t hok => rw [hok, hk]
  next e t herror => rw [herror]

/-! ### The state after a program -/

/-- From a state with `P` the program leads to one with `Q`, whether it fails or not. -/
def Ensures (P : σ → Prop) (m : Program σ ε α) (Q : σ → Prop) : Prop := ∀ s, P s → Q (m.run s).2

namespace Ensures
variable {P Q : σ → Prop}

variable {m : Program σ ε α}

/-- `P` holds until the last part, and a failure before it leaves `P`. -/
theorem bind (hm : Ensures P m P) (hPQ : ∀ s, P s → Q s) (hk : ∀ a, Ensures P (k a) Q) : Ensures P (m >>= k) Q := by
  intro s hs
  have hafter := hm s hs
  rw [run_bind]
  split
  next a t hok =>
    rw [hok] at hafter
    exact hk a t hafter
  next e t herror =>
    rw [herror] at hafter
    exact hPQ t hafter

theorem write {g : σ → σ} (h : ∀ s, P s → Q (g s)) : Ensures P (Program.write g : Program σ ε Unit) Q := h

theorem ite {p : Prop} [Decidable p] {n : Program σ ε α} (hm : Ensures P m Q) (hn : Ensures P n Q) :
    Ensures P (if p then m else n) Q := by
  split
  · exact hm
  · exact hn

end Ensures

/-- The program leaves `f` of the state unchanged, whether it fails or not. -/
def Keeps (f : σ → γ) (m : Program σ ε α) : Prop := ∀ s, f (m.run s).2 = f s

namespace Keeps
variable {f : σ → γ}

theorem pure (a : α) : Keeps f (Pure.pure a : Program σ ε α) := fun _ => rfl

theorem fail (e : ε) : Keeps f (Program.fail e : Program σ ε α) := fun _ => rfl

theorem read (g : σ → α) : Keeps f (Program.read g : Program σ ε α) := fun _ => rfl

theorem ofExcept (outcome : Except ε α) : Keeps f (Program.ofExcept outcome : Program σ ε α) := fun _ => rfl

theorem write {g : σ → σ} (h : ∀ s, f (g s) = f s) : Keeps f (Program.write g : Program σ ε Unit) := h

variable {m : Program σ ε α}

theorem attempt (h : Keeps f m) : Keeps f (Program.attempt m : Program σ ε' (Except ε α)) := h

theorem bind (hm : Keeps f m) (hk : ∀ a, Keeps f (k a)) : Keeps f (m >>= k) :=
  fun s => Ensures.bind (P := fun t => f t = f s) (fun t ht => (hm t).trans ht) (fun _ ht => ht)
    (fun a t ht => (hk a t).trans ht) s rfl

theorem ite {p : Prop} [Decidable p] {n : Program σ ε α} (hm : Keeps f m) (hn : Keeps f n) :
    Keeps f (if p then m else n) := by
  split
  · exact hm
  · exact hn

end Keeps

end Program

end NodeGet.Machine
