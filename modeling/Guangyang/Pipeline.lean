import Guangyang.Handlers
import Mathlib.Logic.Relation
/-!
# Pipeline — every interleaving of the handlers on one job's record

Any number of intake requests, compare-worker and paygate-worker runs, notify deliveries and cancel
requests run at once against the record under one key.  Each run is its `Prog`; a step lets one run make
its next call on the record as it is *now*, while the run's branches were decided on what its earlier
`Get`s returned.  Nothing is assumed of leases: `CompareEnv.lease` and `PaygateEnv.lease` are inputs of
the run, so two runs of one stage may both hold theirs.

`Sys.next?` is the same relation as a scheduler, for writing down one run of the system.
-/
namespace Guangyang

/-- A handler run, with the inputs it was started with. -/
inductive Actor
  | intake (jobID key1 key2 name1 name2 : String) (env : IntakeEnv)
  | compareWorker (jobID : String) (env : CompareEnv)
  | paygateWorker (jobID : String) (env : PaygateEnv)
  | notify (tx : Transaction) (now : Nat)
  | cancel (jobID : String) (env : CancelEnv)

namespace Actor

/-- What the run returns: a result to `handleOne`, or an HTTP reply. -/
def Out : Actor → Type
  | compareWorker .. => HandlerResult
  | paygateWorker .. => HandlerResult
  | _ => Reply

/-- The run's store calls. -/
def program : (a : Actor) → Prog a.Out
  | intake jobID k1 k2 n1 n2 env => handleCreateJob jobID k1 k2 n1 n2 env
  | compareWorker jobID env => compareProcess jobID env
  | paygateWorker jobID env => paygateProcess jobID env
  | notify tx now => notifyHandle tx now
  | cancel jobID env => handleCancelJob jobID env

/-- `FeeFen()` at a paygate run is one of `fees`. -/
def FeeIn (fees : Nat → Prop) : Actor → Prop
  | paygateWorker _ env => fees env.feeFen
  | _ => True

end Actor

/-- A run in flight: its handler, what its `Get`s have returned so far, and the calls it has left. -/
structure Run where
  actor : Actor
  reads : List Read
  prog : Prog actor.Out

/-- The job's record with the effects so far, and the runs in flight. -/
structure Sys where
  world : World
  runs : List Run

/-- Before the intake: no record, no effect, no run. -/
def Sys.init : Sys := ⟨⟨none, []⟩, []⟩

/-- What a `Get` returns when it does not fail. -/
def World.answer (key : String) (w : World) (fail : Bool) (id : String) : Read :=
  if fail then .err else w.read key id

/-- **One step of the pipeline**: a handler run starts, or one run in flight makes its next call on the
record as it is now.  A `Get`, `Update` or `Create` may fail; `fees` are the values `FeeFen()` takes. -/
inductive Step (key : String) (fees : Nat → Prop) : Sys → Sys → Prop
  | spawn {w : World} {rs : List Run} (a : Actor) (h : a.FeeIn fees) :
      Step key fees ⟨w, rs⟩ ⟨w, ⟨a, [], a.program⟩ :: rs⟩
  | get {w : World} {pre post : List Run} {a : Actor} {rds : List Read} {id : String}
      {k : Read → Prog a.Out} (fail : Bool) :
      Step key fees ⟨w, pre ++ ⟨a, rds, .get id k⟩ :: post⟩
        ⟨w, pre ++ ⟨a, rds ++ [w.answer key fail id], k (w.answer key fail id)⟩ :: post⟩
  | update {w : World} {pre post : List Run} {a : Actor} {rds : List Read} {id : String} {m : Mutator}
      {k : Prog a.Out} (fail : Bool) :
      Step key fees ⟨w, pre ++ ⟨a, rds, .update id m k⟩ :: post⟩
        ⟨if fail then w else w.write key id m, pre ++ ⟨a, rds, k⟩ :: post⟩
  | create {w : World} {pre post : List Run} {a : Actor} {rds : List Read} {j : CompareJob}
      {k : Prog a.Out} (fail : Bool) :
      Step key fees ⟨w, pre ++ ⟨a, rds, .create j k⟩ :: post⟩
        ⟨if fail then w else w.insert key j, pre ++ ⟨a, rds, k⟩ :: post⟩
  | emit {w : World} {pre post : List Run} {a : Actor} {rds : List Read} {e : Effect} {k : Prog a.Out} :
      Step key fees ⟨w, pre ++ ⟨a, rds, .emit e k⟩ :: post⟩ ⟨w.emit e, pre ++ ⟨a, rds, k⟩ :: post⟩
  | finish {w : World} {pre post : List Run} {a : Actor} {rds : List Read} {x : a.Out} :
      Step key fees ⟨w, pre ++ ⟨a, rds, .ret x⟩ :: post⟩ ⟨w, pre ++ post⟩

/-- The states the pipeline reaches from before the intake. -/
def Reachable (key : String) (fees : Nat → Prop) (s : Sys) : Prop :=
  Relation.ReflTransGen (Step key fees) Sys.init s

/-! ## The scheduler -/

/-- A scheduler's choice: start a handler run, or let the `i`-th run in flight make its next call. -/
inductive Choice
  | spawn (a : Actor)
  | next (i : Nat) (fail : Bool)

/-- The `i`-th element of a list and the elements around it. -/
def pick {α : Type} : List α → Nat → Option (List α × α × List α)
  | [], _ => none
  | r :: rs, 0 => some ([], r, rs)
  | r :: rs, i + 1 => (pick rs i).map fun (pre, x, post) => (r :: pre, x, post)

theorem pick_eq {α : Type} {rs : List α} {i : Nat} {pre : List α} {r : α} {post : List α}
    (h : pick rs i = some (pre, r, post)) : rs = pre ++ r :: post := by
  induction rs generalizing i pre with
  | nil => cases h
  | cons x rs ih =>
    cases i with
    | zero => cases h; rfl
    | succ i =>
      obtain ⟨⟨pre', r', post'⟩, h', he⟩ := Option.map_eq_some'.1 h
      cases he
      rw [ih h']; rfl

/-- The pipeline after the run between `pre` and `post` made its next call on `w`. -/
def Run.after (key : String) (w : World) (fail : Bool) (pre post : List Run) : Run → Sys
  | ⟨_, _, .ret _⟩ => ⟨w, pre ++ post⟩
  | ⟨a, rds, .get id k⟩ => ⟨w, pre ++ ⟨a, rds ++ [w.answer key fail id], k (w.answer key fail id)⟩ :: post⟩
  | ⟨a, rds, .update id m k⟩ => ⟨if fail then w else w.write key id m, pre ++ ⟨a, rds, k⟩ :: post⟩
  | ⟨a, rds, .create j k⟩ => ⟨if fail then w else w.insert key j, pre ++ ⟨a, rds, k⟩ :: post⟩
  | ⟨a, rds, .emit e k⟩ => ⟨w.emit e, pre ++ ⟨a, rds, k⟩ :: post⟩

/-- The scheduler, one choice. -/
def Sys.next? (key : String) (s : Sys) : Choice → Option Sys
  | .spawn a => some ⟨s.world, ⟨a, [], a.program⟩ :: s.runs⟩
  | .next i fail => (pick s.runs i).map fun (pre, r, post) => r.after key s.world fail pre post

/-- The scheduler, a list of choices. -/
def Sys.run? (key : String) (s : Sys) : List Choice → Option Sys
  | [] => some s
  | c :: cs => (s.next? key c).bind fun t => t.run? key cs

theorem Run.after_step (key : String) (fees : Nat → Prop) (w : World) (fail : Bool) (pre post : List Run)
    (r : Run) : Step key fees ⟨w, pre ++ r :: post⟩ (r.after key w fail pre post) := by
  obtain ⟨a, rds, p⟩ := r
  cases p with
  | ret x => exact Step.finish
  | get id k => exact Step.get fail
  | update id m k => exact Step.update fail
  | create j k => exact Step.create fail
  | emit e k => exact Step.emit

/-- **The scheduler only takes steps of the pipeline.** -/
theorem Sys.run?_steps (key : String) (fees : Nat → Prop) :
    ∀ (cs : List Choice) (s t : Sys), s.run? key cs = some t →
      (∀ a, Choice.spawn a ∈ cs → a.FeeIn fees) → Relation.ReflTransGen (Step key fees) s t
  | [], s, t, h, _ => by cases h; exact .refl
  | c :: cs, s, t, h, hf => by
    obtain ⟨u, hu, ht⟩ := Option.bind_eq_some.1 h
    refine .head ?_ (Sys.run?_steps key fees cs u t ht fun a ha => hf a (.tail _ ha))
    cases c with
    | spawn a => cases hu; exact Step.spawn a (hf a (.head _))
    | next i fail =>
      obtain ⟨⟨pre, r, post⟩, hp, rfl⟩ := Option.map_eq_some'.1 hu
      obtain ⟨ws, rs⟩ := s
      cases pick_eq hp
      exact Run.after_step key fees ws fail pre post r

end Guangyang
