import AuroraVpn.Lib.Log
import AuroraVpn.NetStack.State

/-!
# Trace — reading a history

What the events of a run say about one connection: the bytes put on the data channel for it and
taken off again, the bytes passed to its socket, and the bytes delivered to its application.
-/

namespace AuroraVpn
namespace Net

/-- The bytes of a message for connection `id`. -/
def DataIn.bytesFor (id : Nat) : DataIn → Bytes
  | .tcp i data => if i = id then data else []
  | .tcpClose _ | .udp _ _ _ | .udpClose _ => []

/-- The bytes that some messages hold for a connection, in order. -/
def bytesFor (id : Nat) (ds : List DataIn) : Bytes :=
  ds.flatMap (DataIn.bytesFor id)

section Events

variable {σ : Type}

namespace Event

/-- The connection that an event is about. -/
def id? : Event σ → Option Nat
  | .refused _ => none
  | .queued d | .dequeued d => some d.id
  | .sent id _ | .delivered id _ | .handed _ id | .senderDropped _ id | .closed id _ _ _
  | .removed id _ _ => some id

def queued? : Event σ → Option DataIn
  | .queued d => some d
  | _ => none

def dequeued? : Event σ → Option DataIn
  | .dequeued d => some d
  | _ => none

def sentFor (id : Nat) : Event σ → Bytes
  | .sent i data => if i = id then data else []
  | _ => []

def deliveredFor (id : Nat) : Event σ → Bytes
  | .delivered i chunk => if i = id then chunk else []
  | _ => []

/-- What the service of TCP connection `id` does by itself. -/
def OfService (id : Nat) : Event σ → Prop
  | .refused _ => True
  | .queued _ | .dequeued _ | .senderDropped _ _ => False
  | .handed proto i => proto = .tcp ∧ i = id
  | .sent i _ | .delivered i _ | .closed i _ _ _ | .removed i _ _ => i = id

end Event

/-- The messages put on the data channel. -/
def queuedLog (t : List (Event σ)) : List DataIn :=
  t.filterMap Event.queued?

/-- The messages taken off the data channel. -/
def dequeuedLog (t : List (Event σ)) : List DataIn :=
  t.filterMap Event.dequeued?

/-- The bytes passed to the socket of a connection. -/
def sentBytes (id : Nat) (t : List (Event σ)) : Bytes :=
  t.flatMap (Event.sentFor id)

/-- The bytes sent into the `to_app` channel of a connection. -/
def deliveredBytes (id : Nat) (t : List (Event σ)) : Bytes :=
  t.flatMap (Event.deliveredFor id)

variable {t u : List (Event σ)} {id i : Nat}

@[simp] theorem bytesFor_nil : bytesFor id [] = [] := rfl

@[simp] theorem bytesFor_cons (d : DataIn) (ds : List DataIn) :
    bytesFor id (d :: ds) = d.bytesFor id ++ bytesFor id ds := rfl

@[simp] theorem bytesFor_append (ds es : List DataIn) :
    bytesFor id (ds ++ es) = bytesFor id ds ++ bytesFor id es :=
  List.flatMap_append

@[simp] theorem queuedLog_append : queuedLog (t ++ u) = queuedLog t ++ queuedLog u :=
  List.filterMap_append

@[simp] theorem dequeuedLog_append : dequeuedLog (t ++ u) = dequeuedLog t ++ dequeuedLog u :=
  List.filterMap_append

@[simp] theorem sentBytes_append : sentBytes id (t ++ u) = sentBytes id t ++ sentBytes id u :=
  List.flatMap_append

@[simp] theorem deliveredBytes_append :
    deliveredBytes id (t ++ u) = deliveredBytes id t ++ deliveredBytes id u :=
  List.flatMap_append

@[simp] theorem sentBytes_nil : sentBytes id ([] : List (Event σ)) = [] := rfl

@[simp] theorem deliveredBytes_nil : deliveredBytes id ([] : List (Event σ)) = [] := rfl

/-! ## Events about others -/

theorem DataIn.bytesFor_of_ne {d : DataIn} (h : d.id ≠ id) : d.bytesFor id = [] := by
  cases d <;> simp_all [DataIn.bytesFor, DataIn.id]

/-- Messages for other connections hold nothing for this one. -/
theorem bytesFor_eq_nil {ds : List DataIn} (h : ∀ d ∈ ds, d.id ≠ id) : bytesFor id ds = [] :=
  List.flatMap_eq_nil_iff.mpr fun d hd => DataIn.bytesFor_of_ne (h d hd)

theorem sentBytes_eq_nil (h : ∀ e ∈ t, e.id? ≠ some id) : sentBytes id t = [] := by
  refine List.flatMap_eq_nil_iff.mpr fun e he => ?_
  have := h e he
  cases e <;> simp_all [Event.sentFor, Event.id?]

theorem deliveredBytes_eq_nil (h : ∀ e ∈ t, e.id? ≠ some id) : deliveredBytes id t = [] := by
  refine List.flatMap_eq_nil_iff.mpr fun e he => ?_
  have := h e he
  cases e <;> simp_all [Event.deliveredFor, Event.id?]

theorem mem_queuedLog {d : DataIn} : d ∈ queuedLog t ↔ Event.queued d ∈ t := by
  simp only [queuedLog, List.mem_filterMap]
  constructor
  · rintro ⟨e, he, hd⟩
    cases e <;> simp_all [Event.queued?]
  · intro h
    exact ⟨_, h, rfl⟩

theorem mem_dequeuedLog {d : DataIn} : d ∈ dequeuedLog t ↔ Event.dequeued d ∈ t := by
  simp only [dequeuedLog, List.mem_filterMap]
  constructor
  · rintro ⟨e, he, hd⟩
    cases e <;> simp_all [Event.dequeued?]
  · intro h
    exact ⟨_, h, rfl⟩

theorem sentBytes_queued (ds : List DataIn) :
    sentBytes id (ds.map (Event.queued (σ := σ))) = [] := by
  induction ds with
  | nil => rfl
  | cons d ds ih => exact ih

theorem queuedLog_queued (ds : List DataIn) : queuedLog (ds.map (Event.queued (σ := σ))) = ds := by
  induction ds with
  | nil => rfl
  | cons d ds ih => exact congrArg (d :: ·) ih

theorem dequeuedLog_queued (ds : List DataIn) :
    dequeuedLog (ds.map (Event.queued (σ := σ))) = [] := by
  induction ds with
  | nil => rfl
  | cons d ds ih => exact ih

theorem deliveredBytes_queued (ds : List DataIn) :
    deliveredBytes id (ds.map (Event.queued (σ := σ))) = [] := by
  induction ds with
  | nil => rfl
  | cons d ds ih => exact ih

section OfService

variable (h : ∀ e ∈ t, Event.OfService i e)
include h

/-- The service of a connection leaves the data channel alone. -/
theorem queuedLog_ofService : queuedLog t = [] := by
  refine List.filterMap_eq_nil_iff.mpr fun e he => ?_
  have := h e he
  cases e <;> simp_all [Event.queued?, Event.OfService]

theorem dequeuedLog_ofService : dequeuedLog t = [] := by
  refine List.filterMap_eq_nil_iff.mpr fun e he => ?_
  have := h e he
  cases e <;> simp_all [Event.dequeued?, Event.OfService]

theorem id?_ofService : ∀ e ∈ t, ∀ j, e.id? = some j → j = i := by
  intro e he j hj
  have := h e he
  cases e <;> simp_all [Event.id?, Event.OfService]

theorem sentBytes_ofService (hne : i ≠ id) : sentBytes id t = [] :=
  sentBytes_eq_nil fun e he heq => hne (id?_ofService h e he id heq).symm

theorem deliveredBytes_ofService (hne : i ≠ id) : deliveredBytes id t = [] :=
  deliveredBytes_eq_nil fun e he heq => hne (id?_ofService h e he id heq).symm

end OfService

section OfOutside

/-- What the applications and the commands do: no byte moves on a TCP connection. -/
def Event.OfOutside : Event σ → Prop
  | .refused _ | .queued _ | .handed _ _ | .senderDropped _ _ => True
  | .dequeued _ | .sent _ _ | .delivered _ _ | .closed _ _ _ _ | .removed _ _ _ => False

variable (h : ∀ e ∈ t, Event.OfOutside e)
include h

theorem sentBytes_ofOutside : sentBytes id t = [] := by
  refine List.flatMap_eq_nil_iff.mpr fun e he => ?_
  have := h e he
  cases e <;> simp_all [Event.sentFor, Event.OfOutside]

theorem deliveredBytes_ofOutside : deliveredBytes id t = [] := by
  refine List.flatMap_eq_nil_iff.mpr fun e he => ?_
  have := h e he
  cases e <;> simp_all [Event.deliveredFor, Event.OfOutside]

theorem dequeuedLog_ofOutside : dequeuedLog t = [] := by
  refine List.filterMap_eq_nil_iff.mpr fun e he => ?_
  have := h e he
  cases e <;> simp_all [Event.dequeued?, Event.OfOutside]

end OfOutside

end Events

end Net
end AuroraVpn
