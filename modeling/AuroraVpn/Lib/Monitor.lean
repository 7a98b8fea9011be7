import Mathlib.Data.Option.Basic

/-!
# Monitor — an abstract machine that reads the log of a concrete one

A monitor goes from state to state with the events it accepts.  A log is accepted when each of its
events is, in its order; what the log of a system may look like is stated as a monitor, and that the
system keeps to it is a relation between the two states that every turn of the system preserves.

* `Follows.emit`: one event more.
-/

namespace AuroraVpn

/-- `accept e a` is `none` when the event is not one that may come next. -/
structure Monitor (A E : Type) where
  init : A
  accept : E → A → Option A

namespace Monitor

variable {A E : Type} {monitor : Monitor A E} {log : List E} {a b : A} {e : E}

/-- The state that a log leads to. -/
def after (monitor : Monitor A E) (log : List E) : Option A :=
  log.foldlM (fun a e => monitor.accept e a) monitor.init

/-- The monitor has followed a log to a state. -/
def Follows (monitor : Monitor A E) (log : List E) (a : A) : Prop :=
  monitor.after log = some a

def Accepts (monitor : Monitor A E) (log : List E) : Prop :=
  ∃ a, monitor.Follows log a

/-- **One event more.** -/
theorem Follows.emit (h : monitor.Follows log a) (he : monitor.accept e a = some b) :
    monitor.Follows (log ++ [e]) b := by
  unfold Follows after at h ⊢
  rw [List.foldlM_append, h]
  simp [he]

end Monitor
end AuroraVpn
