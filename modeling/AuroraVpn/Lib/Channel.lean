import Mathlib.Data.List.Basic

/-!
# Channel — a bounded queue between a sender and a receiver

The `mpsc` channel of `tokio`: a send needs a slot and a receiver, a receiver that is dropped takes
the queue with it.
-/

namespace AuroraVpn

structure Channel (α : Type) where
  queue : List α
  capacity : Nat
  rxOpen : Bool
  deriving DecidableEq, Repr

/-- What `try_reserve` comes to. -/
inductive Reserve
  | permit
  | full
  | closed
  deriving DecidableEq, Repr

namespace Channel

variable {α : Type}

def new (capacity : Nat) : Channel α :=
  ⟨[], capacity, true⟩

def tryReserve (c : Channel α) : Reserve :=
  if !c.rxOpen then .closed
  else if c.capacity ≤ c.queue.length then .full
  else .permit

/-- Sends with a permit. -/
def push (c : Channel α) (a : α) : Channel α :=
  { c with queue := c.queue ++ [a] }

def trySend (c : Channel α) (a : α) : Channel α :=
  match c.tryReserve with
  | .permit => c.push a
  | .full | .closed => c

/-- The receiver takes up to `n` items. -/
def take (c : Channel α) (n : Nat) : Channel α :=
  { c with queue := c.queue.drop n }

def dropReceiver (c : Channel α) : Channel α :=
  { c with queue := [], rxOpen := false }

@[simp] theorem push_rxOpen (c : Channel α) (a : α) : (c.push a).rxOpen = c.rxOpen := rfl

@[simp] theorem push_queue (c : Channel α) (a : α) : (c.push a).queue = c.queue ++ [a] := rfl

@[simp] theorem push_capacity (c : Channel α) (a : α) : (c.push a).capacity = c.capacity := rfl

theorem tryReserve_eq_permit {c : Channel α} :
    c.tryReserve = .permit ↔ c.rxOpen = true ∧ c.queue.length < c.capacity := by
  unfold tryReserve
  split_ifs with hclosed hfull <;> simp_all

theorem tryReserve_eq_full {c : Channel α} :
    c.tryReserve = .full ↔ c.rxOpen = true ∧ c.capacity ≤ c.queue.length := by
  unfold tryReserve
  split_ifs with hclosed hfull <;> simp_all

theorem tryReserve_eq_closed {c : Channel α} : c.tryReserve = .closed ↔ c.rxOpen = false := by
  unfold tryReserve
  split_ifs with hclosed hfull <;> simp_all

end Channel
end AuroraVpn
