import Mathlib.Data.List.Basic

/-! A bounded queue between senders and one receiver, with its history.

What was accepted and what was taken are kept as lists. That the receiver takes the elements
in the order they were accepted, and that those it has not taken are the ones in the queue, is
part of the type (`inOrder`): there is no other channel. -/
namespace NodeGet.Machine

structure Channel (ε : Type*) (capacity : Nat) where
  queue : List ε
  /-- History: what was put in. -/
  accepted : List ε
  /-- History: what was taken out. -/
  taken : List ε
  inOrder : accepted = taken ++ queue
  bounded : queue.length ≤ capacity

namespace Channel
variable {ε : Type*} {capacity : Nat}

def empty : Channel ε capacity := ⟨[], [], [], rfl, Nat.zero_le _⟩

/-- A full queue takes no more. -/
def trySend (c : Channel ε capacity) (e : ε) : Option (Channel ε capacity) :=
  if h : c.queue.length < capacity then
    some {
      queue := c.queue ++ [e]
      accepted := c.accepted ++ [e]
      taken := c.taken
      inOrder := by rw [c.inOrder, List.append_assoc]
      bounded := by rwa [List.length_append, List.length_singleton] }
  else none

def recv (c : Channel ε capacity) : Option (ε × Channel ε capacity) :=
  match hqueue : c.queue with
  | [] => none
  | e :: rest =>
    some (e, {
      queue := rest
      accepted := c.accepted
      taken := c.taken ++ [e]
      inOrder := by rw [c.inOrder, hqueue, List.append_assoc, List.singleton_append]
      bounded := by
        have hlength := c.bounded
        rw [hqueue, List.length_cons] at hlength
        exact Nat.le_of_succ_le hlength })

variable {c c' : Channel ε capacity} {e : ε}

theorem trySend_eq_some (h : c.trySend e = some c') : c'.accepted = c.accepted ++ [e] ∧ c'.taken = c.taken := by
  rw [trySend] at h
  split at h
  next =>
    cases h
    exact ⟨rfl, rfl⟩
  next => cases h

theorem recv_eq_some (h : c.recv = some (e, c')) : c'.accepted = c.accepted ∧ c'.taken = c.taken ++ [e] := by
  rw [recv] at h
  split at h
  next => cases h
  next =>
    cases h
    exact ⟨rfl, rfl⟩

/-- A queue that is not empty has something to take. -/
theorem recv_of_queue_eq_cons {rest : List ε} (h : c.queue = e :: rest) : ∃ c', c.recv = some (e, c') := by
  rw [recv]
  split
  next hnil =>
    rw [h] at hnil
    cases hnil
  next hcons =>
    rw [h] at hcons
    cases hcons
    exact ⟨_, rfl⟩

/-- What has been taken from an empty queue is all there was. -/
theorem taken_of_queue_eq_nil (h : c.queue = []) : c.taken = c.accepted := by
  rw [c.inOrder, h, List.append_nil]

end Channel

end NodeGet.Machine
