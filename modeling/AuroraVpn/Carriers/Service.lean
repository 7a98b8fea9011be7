import AuroraVpn.Basic
import AuroraVpn.Lib.Runs
import Mathlib.Logic.Function.Basic

/-!
# Service — a carrier in a process of its own, and the clients that start it

What `TorClient` and `PsiphonClient` have in common, over what `TorCarrierService` and `PsiphonService`
do each in its own way (`Service`).  The service tells its state to all who have registered, and says
neither which start it is about nor which client it is for; the runs of a `Report` are known to the
model only.

* `Lawful`: what a service keeps of the run that its tunnel was started for.
* `judged`: the runs in which every start is judged by its own run.
-/

namespace AuroraVpn
namespace Carriers

open Runs

inductive Stage
  | stopped
  | connecting
  | connected
  | failed
  deriving DecidableEq, Repr

/-- A state message, with the runs that its stage and its port are due to. -/
structure Report where
  stage : Stage
  port : Nat
  failure : Option Text
  stageRun : Option Nat
  portRun : Option Nat
  deriving DecidableEq

/-- What `start` waits for. -/
def Report.isOutcome (report : Report) : Bool :=
  match report.stage with
  | .connected => 0 < report.port
  | .failed => true
  | _ => false

/-- An outcome is due to the run: the failure, or the connection and the port that goes with it. -/
def Report.Own (report : Report) (n : Nat) : Prop :=
  report.isOutcome = true →
    report.stageRun = some n ∧ (report.stage = .connected → report.portRun = some n)

/-- `CarrierSnapshot()`. -/
def Report.initial : Report where
  stage := .stopped
  port := 0
  failure := none
  stageRun := none
  portRun := none

/-- A service of states `σ` with callbacks `ε`, that is started with `π` under the circumstances `δ`.
Next to its new state a step gives the reports that are broadcast. -/
structure Service (σ ε π δ : Type) where
  fresh : σ
  /-- A start returns at once. -/
  holds : σ → Bool
  /-- A start of this run, of a service that holds no tunnel. -/
  start : δ → Nat → π → σ → σ × List Report
  stop : σ → σ × List Report
  /-- A callback, a broadcast or a poll that belongs to a run. -/
  handle : Nat → ε → σ → σ × List Report
  report : σ → Report
  /-- Nothing in these circumstances keeps a start with these parameters from going through. -/
  Permits : δ → π → Prop
  /-- What such a start leaves: a tunnel that was started in this run, with these parameters. -/
  Launched : δ → Nat → π → σ → Prop

/-! ## Clients and service -/

structure CarrierClient where
  /-- `connection` is set. -/
  bound : Bool
  /-- `mutableState`. -/
  flow : Report
  /-- What was sent to it and has not been handled. -/
  inbox : List Report
  /-- The run that its `start` waits for. -/
  waiting : Option Nat

def CarrierClient.new : CarrierClient where
  bound := false
  flow := .initial
  inbox := []
  waiting := none

/-- A command that is underway to the service. -/
inductive Command (π : Type)
  | start (n : Nat) (params : π)
  | stop

structure System (σ π : Type) where
  svc : σ
  /-- The run that the service was last started for, and what with. -/
  run : Option (Nat × π)
  registered : List Nat
  commands : List (Command π)
  next : Nat
  clients : Nat → CarrierClient

inductive Label (ε π δ : Type)
  | bind (c : Nat)
  | register (c : Nat)
  | unregister (c : Nat)
  /-- `start`, once it is bound, commands the service and begins to wait. -/
  | request (c : Nat) (params : π)
  /-- The service handles the next command. -/
  | command (circumstances : δ)
  | event (n : Nat) (e : ε)
  /-- A client handles the next message. -/
  | deliver (c : Nat)
  /-- A waiting `start` sees an outcome, and returns. -/
  | settle (c : Nat)
  | timeout (c : Nat)
  | stop (c : Nat)
  /-- A client is told that the process is gone. -/
  | disconnected (c : Nat)
  | destroy
  | killed

namespace Service

variable {σ ε π δ : Type} (service : Service σ ε π δ)

def init : System σ π where
  svc := service.fresh
  run := none
  registered := []
  commands := []
  next := 0
  clients _ := .new

end Service

namespace System

variable {σ π : Type}

def set (s : System σ π) (c : Nat) (client : CarrierClient) : System σ π :=
  { s with clients := Function.update s.clients c client }

/-- `broadcast`, of some reports one after the other. -/
def tell (s : System σ π) (reports : List Report) : System σ π :=
  { s with
    clients := fun c =>
      { s.clients c with
        inbox := (s.clients c).inbox ++
          reports.flatMap fun report => List.replicate (s.registered.count c) report } }

end System

namespace Service

variable {σ ε π δ : Type} (service : Service σ ε π δ)

def step (l : Label ε π δ) (s : System σ π) : Option (System σ π) :=
  match l with
  | .bind c => some (s.set c { s.clients c with bound := true })
  | .register c =>
      some { s.set c { s.clients c with inbox := (s.clients c).inbox ++ [service.report s.svc] } with
        registered := s.registered ++ [c] }
  | .unregister c => some { s with registered := s.registered.erase c }
  -- a client waits for one reply at a time
  | .request c params =>
      match (s.clients c).waiting with
      | some _ => none
      | none =>
          some { s.set c { s.clients c with waiting := some s.next } with
            commands := s.commands ++ [.start s.next params]
            next := s.next + 1 }
  | .command circumstances =>
      match s.commands with
      | [] => none
      | .start n params :: commands =>
          -- a carrier that is running passes a second start over
          if service.holds s.svc then some { s with commands }
          else
            let (svc, reports) := service.start circumstances n params s.svc
            some ({ s with svc, run := some (n, params), commands }.tell reports)
      | .stop :: commands =>
          let (svc, reports) := service.stop s.svc
          some ({ s with svc, commands }.tell reports)
  | .event n e =>
      let (svc, reports) := service.handle n e s.svc
      some ({ s with svc }.tell reports)
  | .deliver c =>
      match (s.clients c).inbox with
      | [] => none
      | report :: inbox => some (s.set c { s.clients c with flow := report, inbox })
  | .settle c =>
      -- what is waited for is a report that ends a start
      if (s.clients c).waiting.isSome ∧ (s.clients c).flow.isOutcome = true then
        some (s.set c { s.clients c with waiting := none })
      else none
  | .timeout c => some (s.set c { s.clients c with waiting := none })
  | .stop c =>
      some { s.set c { s.clients c with bound := false, flow := .initial } with
        commands := s.commands ++ [.stop] }
  | .disconnected c =>
      -- the client makes this report up: its service has gone without one
      some (s.set c { s.clients c with
        flow := ⟨.failed, 0, some "The process stopped unexpectedly".toList, (s.clients c).waiting, none⟩ })
  | .destroy =>
      let (_, reports) := service.stop s.svc
      some { s.tell reports with svc := service.fresh, run := none, registered := [] }
  | .killed => some { s with svc := service.fresh, run := none, registered := [] }

def machine : Machine (System σ π) (Label ε π δ) where
  init s := s = service.init
  enabled _ _ := True
  step := service.step

/-! ## Judging a start -/

/-- No outcome is told to a client that waits for another run. -/
def Tells (s : System σ π) (run : Option Nat) (reports : List Report) : Prop :=
  ∀ c ∈ s.registered, ∀ m ∈ (s.clients c).waiting, run ≠ some m →
    ∀ report ∈ reports, report.isOutcome = false

/-- The run that the service was last started for. -/
def current (s : System σ π) : Option Nat :=
  s.run.map Prod.fst

instance (s : System σ π) (run : Option Nat) (reports : List Report) : Decidable (Tells s run reports) :=
  inferInstanceAs (Decidable (∀ c ∈ s.registered, ∀ m ∈ (s.clients c).waiting, run ≠ some m →
    ∀ report ∈ reports, report.isOutcome = false))

/-- The service is commanded to start only when it holds no tunnel; what belongs to a run comes while
the service holds its tunnel, or changes nothing; a client starts when no outcome is in its flow or
underway to it; and while it waits it registers with no outcome of another run, and is told none. -/
def Sound (s : System σ π) (l : Label ε π δ) : Prop :=
  match l with
  | .register c => ∀ m ∈ (s.clients c).waiting, current s ≠ some m →
      (service.report s.svc).isOutcome = false
  | .request c _ => ∀ report ∈ (s.clients c).flow :: (s.clients c).inbox, report.isOutcome = false
  | .command circumstances =>
      match s.commands with
      | .start n params :: _ =>
          service.holds s.svc = false ∧
            Tells s (some n) (service.start circumstances n params s.svc).2
      | .stop :: _ => Tells s (current s) (service.stop s.svc).2
      | [] => True
  | .event n e =>
      (current s = some n ∧ service.holds s.svc = true ∨ (service.handle n e s.svc).1 = s.svc) ∧
        Tells s (current s) (service.handle n e s.svc).2
  | .destroy => Tells s (current s) (service.stop s.svc).2
  | _ => True

/-! ## What a service keeps -/

/-- What the steps of a service keep: of one that holds no tunnel, and of one that was started for a
run. -/
structure Lawful (Idle : σ → Prop) (Due : Nat → σ → Prop) : Prop where
  fresh : Idle service.fresh
  idle : ∀ {n s}, Due n s → service.holds s = false → Idle s
  start : ∀ {circumstances n params s}, Idle s → service.holds s = false →
    Due n (service.start circumstances n params s).1 ∧
      ∀ report ∈ (service.start circumstances n params s).2, report.Own n
  launched : ∀ {circumstances n params s}, service.Permits circumstances params →
    service.Launched circumstances n params (service.start circumstances n params s).1
  refused : ∀ {circumstances n params s}, ¬ service.Permits circumstances params →
    (service.report (service.start circumstances n params s).1).stage = .failed ∧
      (service.report (service.start circumstances n params s).1).stageRun = some n
  stop : ∀ {n s}, Due n s → Due n (service.stop s).1
  stop_fresh : (service.stop service.fresh).1 = service.fresh
  stop_reports : ∀ {s}, ∀ report ∈ (service.stop s).2, report = service.report (service.stop s).1
  handle : ∀ {n e s}, Due n s → service.holds s = true → Due n (service.handle n e s).1
  handle_reports : ∀ {n e s}, ∀ report ∈ (service.handle n e s).2,
    report = service.report (service.handle n e s).1
  report : ∀ {n s}, Due n s → (service.report s).Own n

section Proofs

variable {service} {Idle : σ → Prop} {Due : Nat → σ → Prop} {s s' : System σ π} {l : Label ε π δ}

/-- A client that waits has seen no outcome but its own, and none other is underway to it. -/
def Seen (s : System σ π) : Prop :=
  ∀ c, ∀ m ∈ (s.clients c).waiting, ∀ report ∈ (s.clients c).flow :: (s.clients c).inbox, report.Own m

structure Inv (service : Service σ ε π δ) (Due : Nat → σ → Prop) (s : System σ π) : Prop where
  fresh : s.run = none → s.svc = service.fresh
  due : ∀ run ∈ s.run, Due run.1 s.svc
  seen : Seen s

theorem own_of_not_outcome {report : Report} {n : Nat} (h : report.isOutcome = false) : report.Own n := by
  intro houtcome
  rw [h] at houtcome
  cases houtcome

theorem inv_init : Inv service Due (service.init : System σ π) where
  fresh _ := rfl
  due _ h := nomatch h
  seen _ _ h := nomatch h

/-- One client is replaced by one that has seen nothing but what is its own. -/
theorem Seen.set (h : Seen s) {c : Nat} {client : CarrierClient}
    (hclient : ∀ m ∈ client.waiting, ∀ report ∈ client.flow :: client.inbox, report.Own m) :
    Seen (s.set c client) := by
  intro c' m hm report hreport
  change m ∈ (Function.update s.clients c client c').waiting at hm
  change report ∈ (Function.update s.clients c client c').flow ::
    (Function.update s.clients c client c').inbox at hreport
  by_cases hc : c' = c
  · subst hc
    rw [Function.update_self] at hm hreport
    exact hclient m hm report hreport
  · rw [Function.update_of_ne hc] at hm hreport
    exact h c' m hm report hreport

/-- A broadcast that is the run's own, and tells no outcome to those that wait for another. -/
theorem Seen.tell (h : Seen s) {run : Option Nat} {reports : List Report}
    (htells : Tells s run reports) (hown : ∀ n ∈ run, ∀ report ∈ reports, report.Own n) :
    Seen (s.tell reports) := by
  intro c m hm report hreport
  change report ∈ (s.clients c).flow :: ((s.clients c).inbox ++
    reports.flatMap fun report => List.replicate (s.registered.count c) report) at hreport
  rw [← List.cons_append, List.mem_append] at hreport
  rcases hreport with hreport | hreport
  · exact h c m hm report hreport
  · obtain ⟨told, htold, hin⟩ := List.mem_flatMap.1 hreport
    obtain ⟨hcount, rfl⟩ := List.mem_replicate.1 hin
    by_cases hrun : run = some m
    · exact hown m hrun report htold
    · have hregistered : c ∈ s.registered := by
        by_contra hnot
        exact hcount (List.count_eq_zero.2 hnot)
      exact own_of_not_outcome (htells c hregistered m hm hrun report htold)

theorem Inv.idle (hlaw : service.Lawful Idle Due) (h : Inv service Due s)
    (hholds : service.holds s.svc = false) : Idle s.svc := by
  cases hrun : s.run with
  | none =>
      rw [h.fresh hrun]
      exact hlaw.fresh
  | some run => exact hlaw.idle (h.due run hrun) hholds

theorem Inv.report (hlaw : service.Lawful Idle Due) (h : Inv service Due s) {n : Nat}
    (hrun : current s = some n) : (service.report s.svc).Own n := by
  obtain ⟨run, hin, rfl⟩ := Option.map_eq_some_iff.1 hrun
  exact hlaw.report (h.due run hin)

/-- What the service is stopped in. -/
theorem Inv.stopped (hlaw : service.Lawful Idle Due) (h : Inv service Due s) :
    (s.run = none → (service.stop s.svc).1 = service.fresh) ∧
      (∀ run ∈ s.run, Due run.1 (service.stop s.svc).1) ∧
      ∀ n ∈ current s, ∀ report ∈ (service.stop s.svc).2, report.Own n := by
  refine ⟨?_, fun run hrun => hlaw.stop (h.due run hrun), ?_⟩
  · intro hrun
    rw [h.fresh hrun]
    exact hlaw.stop_fresh
  · intro n hn report hreport
    obtain ⟨run, hrun, rfl⟩ := Option.map_eq_some_iff.1 hn
    rw [hlaw.stop_reports report hreport]
    exact hlaw.report (hlaw.stop (h.due run hrun))

theorem Inv.step (hlaw : service.Lawful Idle Due) (h : Inv service Due s) (hsound : service.Sound s l)
    (hstep : service.step l s = some s') : Inv service Due s' := by
  -- by the step; where nothing is reported, the reports are those of before
  cases l with
  | bind c =>
      cases hstep
      exact ⟨h.fresh, h.due, h.seen.set (h.seen c)⟩
  | register c =>
      cases hstep
      refine ⟨h.fresh, h.due, h.seen.set ?_⟩
      intro m hm report hreport
      rw [← List.cons_append, List.mem_append] at hreport
      -- a report that was on the way already, or the one that answers the registration
      rcases hreport with hreport | hreport
      · exact h.seen c m hm report hreport
      · rw [List.mem_singleton.1 hreport]
        -- it is about the run in force, or it is no outcome
        by_cases hrun : current s = some m
        · exact h.report hlaw hrun
        · exact own_of_not_outcome (hsound m hm hrun)
  | unregister c =>
      cases hstep
      exact ⟨h.fresh, h.due, h.seen⟩
  | request c params =>
      unfold Service.step at hstep
      dsimp only at hstep
      split at hstep
      · cases hstep
      · cases hstep
        refine ⟨h.fresh, h.due, h.seen.set ?_⟩
        exact fun m _ report hreport => own_of_not_outcome (hsound report hreport)
  | command circumstances =>
      unfold Service.step at hstep
      dsimp only at hstep
      split at hstep
      · cases hstep
      · next n params commands hcommands =>
          unfold Sound at hsound
          rw [hcommands] at hsound
          obtain ⟨hholds, htells⟩ := hsound
          -- the service is free, so this start makes the run in force
          rw [if_neg (by rw [hholds]; decide)] at hstep
          cases hstep
          obtain ⟨hdue, hown⟩ := @hlaw.start circumstances n params _ (h.idle hlaw hholds) hholds
          refine ⟨nofun, ?_, ?_⟩
          · rintro _ ⟨⟩
            exact hdue
          · refine Seen.tell h.seen htells ?_
            rintro _ ⟨⟩
            exact hown
      · next commands hcommands =>
          unfold Sound at hsound
          rw [hcommands] at hsound
          cases hstep
          -- a stop leaves the service as new, and its reports are no outcome of another run
          obtain ⟨hfresh, hdue, hown⟩ := h.stopped hlaw
          exact ⟨hfresh, hdue, Seen.tell h.seen hsound hown⟩
  -- an event of the run in force; one that comes without a run changes nothing
  | event n e =>
      cases hstep
      obtain ⟨hrun, htells⟩ := hsound
      have hfresh : s.run = none → (service.handle n e s.svc).1 = service.fresh := by
        intro hnone
        rcases hrun with ⟨hrun, -⟩ | hsame
        · rw [current, hnone] at hrun
          cases hrun
        · rw [hsame, h.fresh hnone]
      have hdue : ∀ run ∈ s.run, Due run.1 (service.handle n e s.svc).1 := by
        intro run hin
        rcases hrun with ⟨hcurrent, hholds⟩ | hsame
        · rw [current, hin] at hcurrent
          cases hcurrent
          exact hlaw.handle (h.due run hin) hholds
        · rw [hsame]
          exact h.due run hin
      refine ⟨hfresh, hdue, Seen.tell h.seen htells ?_⟩
      -- what is reported is what the service then holds
      intro m hm report hreport
      obtain ⟨run, hin, rfl⟩ := Option.map_eq_some_iff.1 hm
      rw [hlaw.handle_reports report hreport]
      exact hlaw.report (hdue run hin)
  | deliver c =>
      unfold Service.step at hstep
      dsimp only at hstep
      split at hstep
      · cases hstep
      · next report inbox hinbox =>
          cases hstep
          refine ⟨h.fresh, h.due, h.seen.set ?_⟩
          intro m hm other hother
          refine h.seen c m hm other ?_
          rw [hinbox]
          exact List.mem_cons_of_mem _ hother
  | settle c =>
      unfold Service.step at hstep
      dsimp only at hstep
      split_ifs at hstep
      cases hstep
      exact ⟨h.fresh, h.due, h.seen.set nofun⟩
  | timeout c =>
      cases hstep
      exact ⟨h.fresh, h.due, h.seen.set nofun⟩
  | stop c =>
      cases hstep
      refine ⟨h.fresh, h.due, h.seen.set ?_⟩
      intro m hm report hreport
      -- the client starts over with the report that says nothing
      rcases List.mem_cons.1 hreport with rfl | hreport
      · exact own_of_not_outcome rfl
      · exact h.seen c m hm report (List.mem_cons_of_mem _ hreport)
  | disconnected c =>
      cases hstep
      refine ⟨h.fresh, h.due, h.seen.set ?_⟩
      intro m hm report hreport
      rcases List.mem_cons.1 hreport with rfl | hreport
      · -- the process has gone under the run that waits
        exact fun _ => ⟨hm, nofun⟩
      · exact h.seen c m hm report (List.mem_cons_of_mem _ hreport)
  | destroy =>
      cases hstep
      -- what is left on the way is told once more to those who were registered
      obtain ⟨-, -, hown⟩ := h.stopped hlaw
      refine ⟨fun _ => rfl, nofun, ?_⟩
      exact Seen.tell h.seen hsound hown
  | killed =>
      cases hstep
      exact ⟨fun _ => rfl, nofun, h.seen⟩

end Proofs

end Service

end Carriers
end AuroraVpn
