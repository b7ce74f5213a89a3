import Mathlib.Algebra.Order.Ring.Int
import Mathlib.Data.List.Basic
import Mathlib.Tactic.SplitIfs

/-! Counting the messages of a netlink batch
(`agent/src/monitoring/network_connections/netlink.rs`: `count_netlink_messages`,
`netlink_message_header`, `nlm_align_of`).

A header's length is an unsigned 32-bit number that is aligned as a signed one and then compared
as a `usize`. -/
namespace NodeGet.Agent.Netlink

/-- What the code is compiled for. -/
structure Target where
  littleEndian : Bool
  /-- How many values `usize` has. -/
  usizes : Nat
  wide : 2 ^ 32 ≤ usizes

inductive Fault where
  | einval
  | overflow
  | outOfBounds
deriving DecidableEq

def nlmsgHdrlen : Nat := 16

def Target.readNat (t : Target) (bytes : List UInt8) : Nat :=
  (if t.littleEndian then bytes.reverse else bytes).foldl (fun n byte => 256 * n + byte.toNat) 0

def nlmsgLen (t : Target) (b : List UInt8) : Nat := t.readNat (b.take 4) % 2 ^ 32

def nlmsgType (t : Target) (b : List UInt8) : Nat := t.readNat ((b.drop 4).take 2) % 2 ^ 16

/-- `NLMSG_DONE` or `NLMSG_ERROR` -/
def atEnd (t : Target) (b : List UInt8) : Bool := nlmsgType t b == 3 || nlmsgType t b == 2

def wrapI32 (n : Int) : Int := (n + 2 ^ 31) % 2 ^ 32 - 2 ^ 31

def Target.asUsize (t : Target) (n : Int) : Nat := (n % t.usizes).toNat

/-- `(msglen + 4 - 1) & !3`; the mask takes away the remainder by four, of negative numbers too. -/
def nlmAlignOf (overflowChecks : Bool) (msglen : Int) : Except Fault Int :=
  if overflowChecks ∧ 2 ^ 31 ≤ msglen + 4 then .error .overflow
  else
    let sum := wrapI32 (wrapI32 (msglen + 4) - 1)
    .ok (sum - sum % 4)

def netlinkMessageHeader (t : Target) (overflowChecks : Bool) (b : List UInt8) : Except Fault (Nat × Bool) :=
  if b.length < nlmsgHdrlen then .error .einval
  else do
    let len := nlmsgLen t b
    let aligned ← nlmAlignOf overflowChecks (wrapI32 len)
    let l := t.asUsize aligned
    if len < nlmsgHdrlen ∨ b.length < l then .error .einval else .ok (l, atEnd t b)

def countFrom (t : Target) (overflowChecks : Bool) (msgs : Nat) (b : List UInt8) : Except Fault (Nat × Bool) :=
  if nlmsgHdrlen ≤ b.length then
    match netlinkMessageHeader t overflowChecks b with
    | .error e => .error e
    | .ok (dlen, done) =>
      if done then .ok (msgs, true)
      else if dlen = 0 then .ok (msgs + 1, false)
      else if dlen ≤ b.length then countFrom t overflowChecks (msgs + 1) (b.drop dlen)
      else .error .outOfBounds
  else .ok (msgs, false)
termination_by b.length
decreasing_by simp only [List.length_drop]; omega

def countNetlinkMessages (t : Target) (overflowChecks : Bool) (b : List UInt8) : Except Fault (Nat × Bool) :=
  countFrom t overflowChecks 0 b

variable {t : Target} {overflowChecks : Bool} {b rest : List UInt8} {n : Nat}

/-! ### What is asked of a batch -/

def align (len : Nat) : Nat := (len + 3) / 4 * 4

/-- `b` starts with `n` messages and goes on with `rest`. -/
inductive Messages (t : Target) : List UInt8 → Nat → List UInt8 → Prop
  | zero (b : List UInt8) : Messages t b 0 b
  | succ {b rest : List UInt8} {n : Nat} (hheader : nlmsgHdrlen ≤ b.length) (hmin : nlmsgHdrlen ≤ nlmsgLen t b)
      (hmax : nlmsgLen t b ≤ b.length) (hmore : atEnd t b = false)
      (hrest : Messages t (b.drop (align (nlmsgLen t b))) n rest) : Messages t b (n + 1) rest

def WellFormed (t : Target) (b : List UInt8) (n : Nat) (done : Bool) : Prop :=
  ∃ rest, Messages t b n rest ∧ (done = true ↔ nlmsgHdrlen ≤ rest.length ∧ atEnd t rest = true)

/-- The lengths that the signed arithmetic does not keep: the sum overflows, or it is zero. -/
def Overflows (len : Nat) : Prop := 2 ^ 31 - 4 ≤ len ∧ len < 2 ^ 31

def Vanishes (len : Nat) : Prop := 2 ^ 32 - 3 ≤ len

/-- The loop goes on behind the header. -/
structure GoesOn (t : Target) (b : List UInt8) : Prop where
  header : nlmsgHdrlen ≤ b.length
  min : nlmsgHdrlen ≤ nlmsgLen t b
  len : nlmsgLen t b < 2 ^ 31 - 4
  max : align (nlmsgLen t b) ≤ b.length
  more : atEnd t b = false

/-- After `n` messages the loop comes to `rest`. -/
inductive Reads (t : Target) : List UInt8 → Nat → List UInt8 → Prop
  | zero (b : List UInt8) : Reads t b 0 b
  | succ {b rest : List UInt8} {n : Nat} (hgoes : GoesOn t b)
      (hrest : Reads t (b.drop (align (nlmsgLen t b))) n rest) : Reads t b (n + 1) rest

def Malformed (t : Target) (b : List UInt8) : Prop := nlmsgLen t b < nlmsgHdrlen ∨ b.length < nlmsgLen t b

/-- No overflow and no slice out of bounds; what is counted is there; and a malformed length is an error. -/
structure Sound (t : Target) (b : List UInt8) : Prop where
  safe : ∀ checks fault, countNetlinkMessages t checks b = .error fault → fault = .einval
  wellFormed : ∀ checks n done, countNetlinkMessages t checks b = .ok (n, done) → WellFormed t b n done
  refuses : ∀ checks n rest, Reads t b n rest → nlmsgHdrlen ≤ rest.length → Malformed t rest →
    countNetlinkMessages t checks b = .error .einval

/-- The header's length is lost: it overflows, or it becomes zero although it is too long or more follows. -/
def Lost (t : Target) (b : List UInt8) : Prop :=
  Overflows (nlmsgLen t b) ∨ Vanishes (nlmsgLen t b) ∧
    (b.length < nlmsgLen t b ∨ atEnd t b = false ∧ nlmsgHdrlen ≤ (b.drop (2 ^ 32)).length ∧ atEnd t (b.drop (2 ^ 32)) = true)

/-! ### One header -/

theorem nlmsgLen_lt (t : Target) (b : List UInt8) : nlmsgLen t b < 2 ^ 32 := Nat.mod_lt _ (by decide)

theorem asUsize_of_nonneg {m : Nat} (h : m < 2 ^ 32) : t.asUsize m = m := by
  have hwide := t.wide
  rw [Target.asUsize, Int.emod_eq_of_lt (by omega) (by omega), Int.toNat_natCast]

theorem asUsize_of_neg {m : Int} (hneg : m < 0) (hmin : -2 ^ 31 ≤ m) : t.usizes / 2 ≤ t.asUsize m := by
  have hwide := t.wide
  rw [Target.asUsize, ← Int.add_emod_right, Int.emod_eq_of_lt (by omega) (by omega)]
  omega

section Header
variable (hb : nlmsgHdrlen ≤ b.length)
include hb

theorem header_aligned {m : Int} (h : nlmAlignOf overflowChecks (wrapI32 (nlmsgLen t b)) = .ok m) :
    netlinkMessageHeader t overflowChecks b =
      if nlmsgLen t b < nlmsgHdrlen ∨ b.length < t.asUsize m then .error .einval else .ok (t.asUsize m, atEnd t b) := by
  simp only [netlinkMessageHeader, if_neg (Nat.not_lt.mpr hb), h]
  rfl

theorem header_regular (hlen : nlmsgLen t b < 2 ^ 31 - 4) :
    netlinkMessageHeader t overflowChecks b =
      if nlmsgLen t b < nlmsgHdrlen ∨ b.length < align (nlmsgLen t b) then .error .einval
      else .ok (align (nlmsgLen t b), atEnd t b) := by
  have haligned : nlmAlignOf overflowChecks (wrapI32 (nlmsgLen t b)) = .ok (align (nlmsgLen t b) : Nat) := by
    rw [nlmAlignOf, if_neg (by simp only [wrapI32]; omega)]
    simp only [wrapI32, align, Except.ok.injEq]
    omega
  rw [header_aligned hb haligned, asUsize_of_nonneg (by simp only [align]; omega)]

theorem header_vanishes (hlen : Vanishes (nlmsgLen t b)) :
    netlinkMessageHeader t overflowChecks b = .ok (0, atEnd t b) := by
  have hlt := nlmsgLen_lt t b
  simp only [Vanishes] at hlen
  have haligned : nlmAlignOf overflowChecks (wrapI32 (nlmsgLen t b)) = .ok (0 : Nat) := by
    rw [nlmAlignOf, if_neg (by simp only [wrapI32]; omega)]
    simp only [wrapI32, Except.ok.injEq]
    omega
  rw [header_aligned hb haligned, asUsize_of_nonneg (by decide), if_neg (by simp only [nlmsgHdrlen]; omega)]

theorem header_negative (hslice : b.length < t.usizes / 2) (hmin : 2 ^ 31 ≤ nlmsgLen t b)
    (hmax : ¬Vanishes (nlmsgLen t b)) : netlinkMessageHeader t overflowChecks b = .error .einval := by
  simp only [Vanishes] at hmax
  obtain ⟨m, haligned, hneg, hm⟩ : ∃ m : Int, nlmAlignOf overflowChecks (wrapI32 (nlmsgLen t b)) = .ok m ∧
      m < 0 ∧ -2 ^ 31 ≤ m := by
    refine ⟨_, if_neg (by simp only [wrapI32]; omega), ?_⟩
    simp only [wrapI32]
    omega
  have hlarge := asUsize_of_neg (t := t) hneg hm
  rw [header_aligned hb haligned, if_pos (.inr (by omega))]

theorem header_overflows (hlen : Overflows (nlmsgLen t b)) : netlinkMessageHeader t true b = .error .overflow := by
  simp only [Overflows] at hlen
  have haligned : nlmAlignOf true (wrapI32 (nlmsgLen t b)) = .error .overflow :=
    if_pos ⟨rfl, by simp only [wrapI32]; omega⟩
  simp only [netlinkMessageHeader, if_neg (Nat.not_lt.mpr hb), haligned]
  rfl

end Header

/-! ### The loop -/

theorem countFrom_eq (t : Target) (overflowChecks : Bool) (msgs : Nat) (b : List UInt8) :
    countFrom t overflowChecks msgs b = (countNetlinkMessages t overflowChecks b).map fun r => (msgs + r.1, r.2) := by
  induction hlen : b.length using Nat.strongRecOn generalizing msgs b with
  | ind len ih =>
    rw [countNetlinkMessages, countFrom, countFrom]
    split
    · split
      · rfl
      · next dlen done hheader =>
        split
        · rfl
        · split
          · rfl
          · split
            · have hshorter : (b.drop dlen).length < len := by simp only [List.length_drop]; omega
              rw [ih _ hshorter (msgs + 1) _ rfl, ih _ hshorter (0 + 1) _ rfl]
              cases countNetlinkMessages t overflowChecks (b.drop dlen) with
              | error => rfl
              | ok r => simp [Except.map, Nat.add_assoc]
            · rfl
    · rfl

theorem count_short (hb : ¬nlmsgHdrlen ≤ b.length) : countNetlinkMessages t overflowChecks b = .ok (0, false) := by
  rw [countNetlinkMessages, countFrom, if_neg hb]

theorem count_error (hb : nlmsgHdrlen ≤ b.length) {fault : Fault}
    (h : netlinkMessageHeader t overflowChecks b = .error fault) :
    countNetlinkMessages t overflowChecks b = .error fault := by
  rw [countNetlinkMessages, countFrom, if_pos hb, h]

theorem count_header (hb : nlmsgHdrlen ≤ b.length) {dlen : Nat} {done : Bool}
    (h : netlinkMessageHeader t overflowChecks b = .ok (dlen, done)) :
    countNetlinkMessages t overflowChecks b =
      if done then .ok (0, true) else if dlen = 0 then .ok (1, false)
      else if dlen ≤ b.length then
        (countNetlinkMessages t overflowChecks (b.drop dlen)).map fun r => (1 + r.1, r.2)
      else .error .outOfBounds := by
  rw [countNetlinkMessages, countFrom, if_pos hb, h, Nat.zero_add]
  simp only [countFrom_eq t overflowChecks 1]

theorem count_next (h : GoesOn t b) :
    countNetlinkMessages t overflowChecks b =
      (countNetlinkMessages t overflowChecks (b.drop (align (nlmsgLen t b)))).map fun r => (1 + r.1, r.2) := by
  have hmin := h.min
  have hmax := h.max
  have hheader : netlinkMessageHeader t overflowChecks b = .ok (align (nlmsgLen t b), false) := by
    rw [header_regular h.header h.len, if_neg (by omega), h.more]
  have hpos : align (nlmsgLen t b) ≠ 0 := by
    simp only [align, nlmsgHdrlen] at *
    omega
  rw [count_header h.header hheader, if_neg Bool.false_ne_true, if_neg hpos, if_pos hmax]

theorem map_error {x : Except Fault (Nat × Bool)} {fault : Fault} :
    (x.map fun r => (1 + r.1, r.2)) = .error fault ↔ x = .error fault := by
  cases x <;> simp [Except.map]

theorem map_ok {x : Except Fault (Nat × Bool)} {done : Bool} :
    (x.map fun r => (1 + r.1, r.2)) = .ok (n, done) ↔ ∃ m, x = .ok (m, done) ∧ n = m + 1 := by
  cases x with
  | error => simp [Except.map]
  | ok r =>
    obtain ⟨m, d⟩ := r
    simp only [Except.map, Except.ok.injEq, Prod.mk.injEq]
    constructor
    · intro h
      exact ⟨m, ⟨rfl, h.2⟩, by omega⟩
    · intro ⟨k, hk, hn⟩
      exact ⟨by omega, hk.2⟩

theorem le_align (len : Nat) : len ≤ align len := by
  simp only [align]
  omega

/-- Behind a message that the loop reads, the same is asked of the rest. -/
theorem sound_next (hgoes : GoesOn t b) : Sound t b ↔ Sound t (b.drop (align (nlmsgLen t b))) := by
  have hnext (checks : Bool) : countNetlinkMessages t checks b = _ := count_next hgoes
  have hle := Nat.le_trans (le_align (nlmsgLen t b)) hgoes.max
  constructor
  · intro h
    refine ⟨fun checks fault hcount => ?_, fun checks n done hcount => ?_, fun checks n rest hreads hrest hbad => ?_⟩
    · exact h.safe checks fault (by rwa [hnext, map_error])
    · obtain ⟨rest, hmessages, hdone⟩ := h.wellFormed checks (n + 1) done (by rw [hnext, map_ok]; exact ⟨n, hcount, rfl⟩)
      cases hmessages with
      | succ _ _ _ _ hmessages => exact ⟨rest, hmessages, hdone⟩
    · have hcount := h.refuses checks (n + 1) rest (.succ hgoes hreads) hrest hbad
      rwa [hnext, map_error] at hcount
  · intro h
    refine ⟨fun checks fault hcount => ?_, fun checks n done hcount => ?_, fun checks n rest hreads hrest hbad => ?_⟩
    · rw [hnext, map_error] at hcount
      exact h.safe checks fault hcount
    · rw [hnext, map_ok] at hcount
      obtain ⟨m, hcount, rfl⟩ := hcount
      obtain ⟨rest, hmessages, hdone⟩ := h.wellFormed checks m done hcount
      exact ⟨rest, .succ hgoes.header hgoes.min hle hgoes.more hmessages, hdone⟩
    · cases hreads with
      | zero =>
        have hmin := hgoes.min
        exact absurd hbad (by simp only [Malformed]; omega)
      | succ _ hreads => rw [hnext, map_error, h.refuses checks _ rest hreads hrest hbad]

theorem align_vanishes (hlen : Vanishes (nlmsgLen t b)) : align (nlmsgLen t b) = 2 ^ 32 := by
  have hlt := nlmsgLen_lt t b
  simp only [Vanishes, align] at *
  omega

theorem count_vanishes (hb : nlmsgHdrlen ≤ b.length) (hlen : Vanishes (nlmsgLen t b)) :
    countNetlinkMessages t overflowChecks b = if atEnd t b then .ok (0, true) else .ok (1, false) := by
  rw [count_header hb (header_vanishes hb hlen), if_pos rfl]

theorem not_sound_of_lost (hb : nlmsgHdrlen ≤ b.length) (hlost : Lost t b) : ¬Sound t b := by
  intro h
  rcases hlost with hlen | ⟨hlen, hshort | ⟨hmore, hend⟩⟩
  · cases h.safe true .overflow (count_error hb (header_overflows hb hlen))
  · have hrefused := h.refuses true 0 b (.zero b) hb (.inr hshort)
    rw [count_vanishes hb hlen] at hrefused
    split_ifs at hrefused
  · obtain ⟨rest, hmessages, hdone⟩ := h.wellFormed true 1 false (by rw [count_vanishes hb hlen, hmore]; rfl)
    cases hmessages with
    | succ _ _ _ _ hmessages =>
      cases hmessages
      rw [align_vanishes hlen] at hdone
      exact Bool.false_ne_true (hdone.mpr hend)

theorem reads_end {m : Nat} (hstop : ¬GoesOn t b) (hreads : Reads t b m rest) : rest = b := by
  cases hreads with
  | zero => rfl
  | succ hgoes => exact absurd hgoes hstop

theorem sound_of_ok (hstop : ¬GoesOn t b) (hkept : nlmsgHdrlen ≤ b.length → ¬Malformed t b) {done : Bool}
    (hcount : ∀ checks, countNetlinkMessages t checks b = .ok (n, done)) (h : WellFormed t b n done) : Sound t b := by
  refine ⟨fun checks fault hfault => ?_, fun checks n done hok => ?_, fun checks m rest hreads hrest hbad => ?_⟩
  · cases (hcount checks).symm.trans hfault
  · cases (hcount checks).symm.trans hok
    exact h
  · rw [reads_end hstop hreads] at hrest hbad
    exact absurd hbad (hkept hrest)

theorem sound_of_einval (hb : nlmsgHdrlen ≤ b.length)
    (h : ∀ checks, netlinkMessageHeader t checks b = .error .einval) : Sound t b := by
  have hcount (checks : Bool) := count_error hb (h checks)
  refine ⟨fun checks fault hfault => ?_, fun checks n done hok => ?_, fun checks _ _ _ _ _ => hcount checks⟩
  · cases (hcount checks).symm.trans hfault
    rfl
  · cases (hcount checks).symm.trans hok

/-- The header at which the loop stops, with a length that is kept. -/
theorem sound_stop (hslice : b.length < t.usizes / 2) (hb : nlmsgHdrlen ≤ b.length) (hkept : ¬Lost t b)
    (hstop : ¬GoesOn t b) : Sound t b := by
  have hoverflows : ¬Overflows (nlmsgLen t b) := fun h => hkept (.inl h)
  by_cases hvanishes : Vanishes (nlmsgLen t b)
  · have hmax : nlmsgLen t b ≤ b.length := Nat.not_lt.mp fun h => hkept (.inr ⟨hvanishes, .inl h⟩)
    have hmin : nlmsgHdrlen ≤ nlmsgLen t b := Nat.le_trans (by decide) hvanishes
    have hwell : nlmsgHdrlen ≤ b.length → ¬Malformed t b := by simp only [Malformed]; omega
    cases hend : atEnd t b with
    | true =>
      exact sound_of_ok hstop hwell (fun checks => by rw [count_vanishes hb hvanishes, hend]; rfl)
        ⟨b, .zero b, by simp [hb, hend]⟩
    | false =>
      refine sound_of_ok hstop hwell (fun checks => by rw [count_vanishes hb hvanishes, hend]; rfl)
        ⟨_, .succ hb hmin hmax hend (.zero _), ?_⟩
      rw [align_vanishes hvanishes]
      exact ⟨nofun, fun h => absurd (.inr ⟨hvanishes, .inr ⟨hend, h⟩⟩) hkept⟩
  · by_cases hlen : nlmsgLen t b < 2 ^ 31 - 4
    · by_cases hbad : nlmsgLen t b < nlmsgHdrlen ∨ b.length < align (nlmsgLen t b)
      · exact sound_of_einval hb fun checks => by rw [header_regular hb hlen, if_pos hbad]
      · have hle := le_align (nlmsgLen t b)
        have hend : atEnd t b = true := by
          refine Bool.of_not_eq_false fun hmore => hstop ⟨hb, ?_, hlen, ?_, hmore⟩ <;> omega
        have hdone : WellFormed t b 0 true := ⟨b, .zero b, by simp [hb, hend]⟩
        refine sound_of_ok hstop (fun _ => by simp only [Malformed]; omega) (fun checks => ?_) hdone
        rw [count_header hb ((header_regular hb hlen).trans (if_neg hbad)), hend, if_pos rfl]
    · refine sound_of_einval hb fun checks => header_negative hb hslice ?_ hvanishes
      simp only [Overflows] at hoverflows
      omega

/-- **Counting is sound exactly if no header that the loop reads has a length that the signed
arithmetic loses.** Slices have at most half as many bytes as `usize` has values. -/
theorem count_sound_iff (hslice : b.length < t.usizes / 2) :
    Sound t b ↔ ∀ n rest, Reads t b n rest → nlmsgHdrlen ≤ rest.length → ¬Lost t rest := by
  induction hlen : b.length using Nat.strongRecOn generalizing b with
  | ind len ih =>
    by_cases hgoes : GoesOn t b
    · have hshorter : (b.drop (align (nlmsgLen t b))).length < b.length := by
        have hle := le_align (nlmsgLen t b)
        have hmin := hgoes.min
        have hheader := hgoes.header
        simp only [List.length_drop, nlmsgHdrlen] at *
        omega
      rw [sound_next hgoes, ih _ (hlen ▸ hshorter) (Nat.lt_trans hshorter hslice) rfl]
      constructor
      · intro h n rest hreads hrest
        cases hreads with
        | zero =>
          have hregular := hgoes.len
          simp only [Lost, Overflows, Vanishes]
          omega
        | succ _ hreads => exact h _ rest hreads hrest
      · intro h n rest hreads
        exact h (n + 1) rest (.succ hgoes hreads)
    · constructor
      · intro h n rest hreads hrest hlost
        rw [reads_end hgoes hreads] at hrest hlost
        exact not_sound_of_lost hrest hlost h
      · intro h
        by_cases hb : nlmsgHdrlen ≤ b.length
        · exact sound_stop hslice hb (h 0 b (.zero b) hb) hgoes
        · exact sound_of_ok hgoes (fun h => absurd h hb) (fun _ => count_short hb) ⟨b, .zero b, by simp [hb]⟩

def linux64 : Target := ⟨true, 2 ^ 64, by decide⟩

/-- A header of the given length, all else zero but the type. -/
def header (len : List UInt8) (type : UInt8) : List UInt8 := len ++ type :: List.replicate 11 0

/-- Two messages, the second with two bytes of data and two of padding, and the end of the dump. -/
def twoThenDone : List UInt8 :=
  header [16, 0, 0, 0] 20 ++ header [18, 0, 0, 0] 20 ++ [1, 2, 0, 0] ++ header [16, 0, 0, 0] 3

theorem count_sound_done : Sound linux64 twoThenDone := by
  refine (count_sound_iff (by decide)).mpr fun n rest hreads hrest => ?_
  have hlen : nlmsgLen linux64 rest < 2 ^ 31 - 4 := by
    cases hreads with
    | zero => decide
    | succ _ hreads =>
      cases hreads with
      | zero => decide
      | succ _ hreads =>
        rw [reads_end (fun h => by cases h.more) hreads]
        decide
  simp only [Lost, Overflows, Vanishes]
  omega

/-- A length just below `2 ^ 31` overflows, and one just below `2 ^ 32` counts as a message. -/
theorem lost_lengths :
    countNetlinkMessages linux64 true (header [255, 255, 255, 127] 20) = .error .overflow ∧
      countNetlinkMessages linux64 true (header [253, 255, 255, 255] 20) = .ok (1, false) ∧
      ¬WellFormed linux64 (header [253, 255, 255, 255] 20) 1 false := by
  have hmax : nlmsgLen linux64 (header [255, 255, 255, 127] 20) = 2 ^ 31 - 1 := by decide
  have hlen : nlmsgLen linux64 (header [253, 255, 255, 255] 20) = 2 ^ 32 - 3 := by decide
  refine ⟨count_error (by decide) (header_overflows (by decide) ?_), ?_, ?_⟩
  · rw [hmax, Overflows]
    decide
  · rw [count_vanishes (by decide) (Nat.le_of_eq hlen.symm)]
    rfl
  · intro ⟨rest, hmessages, _⟩
    cases hmessages with
    | succ _ _ hle =>
      rw [hlen] at hle
      exact absurd hle (by decide)

end NodeGet.Agent.Netlink
