import Guangyang.Pipeline
import Mathlib.Logic.Function.Basic
/-!
# Stream — the Redis stream, its consumer group and the per-job lease

`streamq.Consumer` reads a stream with `XREADGROUP … ">"`, re-claims pending entries with `XAUTOCLAIM`, and
hands each entry to `handleOne`, which runs the worker's `Process` and `XACK`s the entry when the result
is `nil` or `Terminal`.  `Process` first takes the job's lease (`redislock`: `SET NX` with a TTL, released
by compare-and-delete).  Any number of consumers run at once: a `Queue` holds the group's pending
entries and every `handleOne` in flight.  Time is not modelled, so any pending entry may be re-claimed
(its idle time may always have passed `min_idle`) and any lease may run out.

Each delivery carries a ghost flag, `ackedSince`: set when the entry it carries is acknowledged.  A
delivery finds its entry pending unless that flag is set, and an entry leaves the pending list only at a
step where `handleOne` acknowledges it: a delivery of it returned `nil` or `Terminal`, or its `jobId` is
missing or blank (`pending_until_acked`).  So a non-terminal return is retried unless another delivery
of the same entry acknowledged it, and one does: a re-claimed copy of the entry that loses the lease
returns `Terminal` while the first delivery is still running (`lease_loser_acks_pending`).
-/
namespace Guangyang

/-- A worker's `Process`: the program it runs on a job once `Acquire` answered. -/
structure Worker where
  Env : Type
  process : Env → String → LeaseOutcome → Prog HandlerResult

/-- `compare.Worker.Process`. -/
def compareWorker : Worker := ⟨CompareEnv, fun env jobID o => compareProcess jobID { env with lease := o }⟩

/-- `paygate.Worker.Process`. -/
def paygateWorker : Worker := ⟨PaygateEnv, fun env jobID o => paygateProcess jobID { env with lease := o }⟩

/-- The next call of a run, with what a `Get` answers: the job store is outside this model. -/
def Prog.next {α : Type} : Prog α → Read → Option (Prog α)
  | .ret _, _ => none
  | .get _ k, rd => some (k rd)
  | .update _ _ k, _ => some k
  | .create _ k, _ => some k
  | .emit _ k, _ => some k

/-- A stream entry: its id (its position) and its `jobId` field, if it has one. -/
structure Entry where
  id : Nat
  jobId : Option String
  deriving DecidableEq, Repr

/-- One `handleOne` in flight: its lease token, the entry, the job, the worker's inputs, and the
program left once `Acquire` answered (`none` before). -/
structure Delivery (W : Worker) : Type where
  uid : Nat
  msg : Nat
  jobID : String
  env : W.Env
  prog : Option (Prog HandlerResult)
  /-- Ghost: the entry was acknowledged since this delivery. -/
  ackedSince : Bool

/-- What the delivery's `Process` returned, once it returned. -/
def Delivery.result? {W : Worker} (r : Delivery W) : Option HandlerResult :=
  match r.prog with
  | some (.ret x) => some x
  | _ => none

theorem Delivery.prog_of_result? {W : Worker} {r : Delivery W} {x : HandlerResult} (h : r.result? = some x) :
    r.prog = some (.ret x) := by
  unfold Delivery.result? at h
  split at h
  · cases h; assumption
  · cases h

/-- The stream, the group's pending entries, the leases, and the deliveries in flight. -/
structure Queue (W : Worker) where
  entries : List Entry
  /-- The group's last-delivered position: `">"` reads from here. -/
  lastDelivered : Nat
  pel : List Nat
  /-- The token holding each job's lease key. -/
  lease : String → Option Nat
  runs : List (Delivery W)
  /-- The next fresh token. -/
  uids : Nat

namespace Queue

variable {W : Worker}

def init : Queue W := ⟨[], 0, [], fun _ => none, [], 0⟩

/-- `RedisStreamQueue.Enqueue`: `XADD {"jobId": jobID}`. -/
def xadd (q : Queue W) (jobID : String) : Queue W :=
  { q with entries := q.entries ++ [⟨q.entries.length, some jobID⟩] }

/-- `XREADGROUP … ">"` hands out the next entry and makes it pending. -/
def deliver (q : Queue W) (e : Entry) : Queue W :=
  { q with lastDelivered := q.lastDelivered + 1, pel := e.id :: q.pel }

/-- `XACK`, with the ghost flag set on every delivery of the entry. -/
def ack (q : Queue W) (id : Nat) : Queue W :=
  { q with pel := q.pel.filter (· != id),
           runs := q.runs.map fun r => if r.msg = id then { r with ackedSince := true } else r }

/-- `_ = c.ack(ctx, msg.ID)`: the call may fail, and its error is dropped. -/
def ackIf (q : Queue W) (ok : Bool) (id : Nat) : Queue W := if ok then q.ack id else q

/-- `handleOne` up to the handler: an entry with no `jobId`, or a blank one, is acknowledged at once. -/
def handleOne (q : Queue W) (e : Entry) (env : W.Env) (ok : Bool) : Queue W :=
  match e.jobId with
  | none => q.ackIf ok e.id
  | some v =>
    if trimSpace v = "" then q.ackIf ok e.id
    else { q with runs := ⟨q.uids, e.id, trimSpace v, env, none, false⟩ :: q.runs, uids := q.uids + 1 }

/-- `Acquire(Key(jobID), token)` for the delivery between `pre` and `post`, then `Process` on what it
answered; `err` is a Redis error. -/
def acquire (q : Queue W) (pre post : List (Delivery W)) (r : Delivery W) (err : Bool) : Queue W :=
  if err then { q with runs := pre ++ { r with prog := some (W.process r.env r.jobID .error) } :: post }
  else match q.lease r.jobID with
    | none => { q with lease := Function.update q.lease r.jobID (some r.uid),
                       runs := pre ++ { r with prog := some (W.process r.env r.jobID .acquired) } :: post }
    | some _ => { q with runs := pre ++ { r with prog := some (W.process r.env r.jobID .notAcquired) } :: post }

/-- The deferred `Release`: the lease key is deleted only if it still holds this delivery's token. -/
def release (q : Queue W) (r : Delivery W) : Queue W :=
  if q.lease r.jobID = some r.uid then { q with lease := Function.update q.lease r.jobID none } else q

end Queue

/-- **One step of the consumers**, any of them. -/
inductive Queue.Step (W : Worker) : Queue W → Queue W → Prop
  /-- `Enqueue(jobID)`: the id is trimmed, and a blank one refused. -/
  | enqueue (q : Queue W) (jobID : String) (h : trimSpace jobID ≠ "") : Queue.Step W q (q.xadd (trimSpace jobID))
  /-- `XREADGROUP` delivers the next entry; `handleOne` starts on it. -/
  | read (q : Queue W) (e : Entry) (env : W.Env) (ok : Bool) (h : q.entries.get? q.lastDelivered = some e) :
      Queue.Step W q ((q.deliver e).handleOne e env ok)
  /-- `XAUTOCLAIM` hands a pending entry to a consumer; `handleOne` starts on it. -/
  | claim (q : Queue W) (e : Entry) (env : W.Env) (ok : Bool) (he : e ∈ q.entries) (hp : e.id ∈ q.pel) :
      Queue.Step W q (q.handleOne e env ok)
  /-- A delivery calls `Acquire`. -/
  | acquire (q : Queue W) (pre post : List (Delivery W)) (r : Delivery W) (err : Bool)
      (hr : q.runs = pre ++ r :: post) (hn : r.prog = none) : Queue.Step W q (q.acquire pre post r err)
  /-- A lease's TTL runs out (its refreshes are best-effort). -/
  | expire (q : Queue W) (jobID : String) : Queue.Step W q { q with lease := Function.update q.lease jobID none }
  /-- A delivery's `Process` makes its next job-store call. -/
  | call (q : Queue W) (pre post : List (Delivery W)) (r : Delivery W) (p p' : Prog HandlerResult) (rd : Read)
      (hr : q.runs = pre ++ r :: post) (hp : r.prog = some p) (hc : p.next rd = some p') :
      Queue.Step W q { q with runs := pre ++ { r with prog := some p' } :: post }
  /-- `Process` returns: the deferred `Release`, then `handleOne`'s ack rule. -/
  | finish (q : Queue W) (pre post : List (Delivery W)) (r : Delivery W) (res : HandlerResult) (ok : Bool)
      (hr : q.runs = pre ++ r :: post) (hp : r.prog = some (.ret res)) :
      Queue.Step W q (({ q with runs := pre ++ post } : Queue W).release r |>.ackIf (res.acks && ok) r.msg)

/-- The states the consumers reach from an empty stream. -/
def Queue.Reachable (W : Worker) (q : Queue W) : Prop := Relation.ReflTransGen (Queue.Step W) Queue.init q

/-! ## The scheduler -/

/-- A scheduler's choice: one step of the consumers, on the entry or the delivery at a position. -/
inductive QChoice (W : Worker)
  | enqueue (jobID : String)
  | read (env : W.Env) (ok : Bool)
  | claim (i : Nat) (env : W.Env) (ok : Bool)
  | acquire (i : Nat) (err : Bool)
  | expire (jobID : String)
  | call (i : Nat) (rd : Read)
  | finish (i : Nat) (ok : Bool)

namespace Queue

variable {W : Worker}

/-- The scheduler, one choice. -/
def next? (q : Queue W) : QChoice W → Option (Queue W)
  | .enqueue jobID => if trimSpace jobID = "" then none else some (q.xadd (trimSpace jobID))
  | .read env ok => (q.entries.get? q.lastDelivered).map fun e => (q.deliver e).handleOne e env ok
  | .claim i env ok => (q.entries.get? i).bind fun e => if e.id ∈ q.pel then some (q.handleOne e env ok) else none
  | .acquire i err => (pick q.runs i).bind fun (pre, r, post) =>
    match r.prog with
    | none => some (q.acquire pre post r err)
    | some _ => none
  | .expire jobID => some { q with lease := Function.update q.lease jobID none }
  | .call i rd => (pick q.runs i).bind fun (pre, r, post) =>
    match r.prog with
    | some p => (p.next rd).map fun p' => { q with runs := pre ++ { r with prog := some p' } :: post }
    | none => none
  | .finish i ok => (pick q.runs i).bind fun (pre, r, post) =>
    match r.prog with
    | some (.ret res) => some ((({ q with runs := pre ++ post } : Queue W).release r).ackIf (res.acks && ok) r.msg)
    | _ => none

/-- The scheduler, a list of choices. -/
def run? (q : Queue W) : List (QChoice W) → Option (Queue W)
  | [] => some q
  | c :: cs => (q.next? c).bind fun t => t.run? cs

theorem next?_step {q q' : Queue W} {c : QChoice W} (h : q.next? c = some q') : Queue.Step W q q' := by
  cases c with
  | enqueue jobID =>
    simp only [next?] at h
    split at h
    · cases h
    · cases h; exact Queue.Step.enqueue q jobID ‹_›
  | read env ok =>
    obtain ⟨e, he, rfl⟩ := Option.map_eq_some'.1 h
    exact Queue.Step.read q e env ok he
  | claim i env ok =>
    obtain ⟨e, he, h⟩ := Option.bind_eq_some.1 h
    split at h
    · cases h; exact Queue.Step.claim q e env ok (List.get?_mem he) ‹_›
    · cases h
  | acquire i err =>
    obtain ⟨⟨pre, r, post⟩, hp, h⟩ := Option.bind_eq_some.1 h
    dsimp only at h
    split at h
    · cases h; exact Queue.Step.acquire q pre post r err (pick_eq hp) ‹_›
    · cases h
  | expire jobID => cases h; exact Queue.Step.expire q jobID
  | call i rd =>
    obtain ⟨⟨pre, r, post⟩, hp, h⟩ := Option.bind_eq_some.1 h
    dsimp only at h
    split at h
    · obtain ⟨p', hc, rfl⟩ := Option.map_eq_some'.1 h
      exact Queue.Step.call q pre post r _ p' rd (pick_eq hp) ‹_› hc
    · cases h
  | finish i ok =>
    obtain ⟨⟨pre, r, post⟩, hp, h⟩ := Option.bind_eq_some.1 h
    dsimp only at h
    split at h
    · cases h; exact Queue.Step.finish q pre post r _ ok (pick_eq hp) ‹_›
    · cases h

/-- **The scheduler only takes steps of the consumers.** -/
theorem run?_steps : ∀ (cs : List (QChoice W)) (q q' : Queue W), q.run? cs = some q' →
    Relation.ReflTransGen (Queue.Step W) q q'
  | [], q, q', h => by cases h; exact .refl
  | c :: cs, q, q', h => by
    obtain ⟨t, ht, h⟩ := Option.bind_eq_some.1 h
    exact .head (next?_step ht) (run?_steps cs t q' h)

end Queue

/-! ## Pending entries -/

namespace Queue

variable {W : Worker}

/-- Every delivery whose entry was not acknowledged since finds it pending. -/
def PendingInv (q : Queue W) : Prop := ∀ r ∈ q.runs, r.ackedSince = false → r.msg ∈ q.pel

/-- A step that keeps each delivery's entry and ghost flag, and drops no pending entry, keeps the
invariant. -/
theorem PendingInv.of_runs {q q' : Queue W} (hi : q.PendingInv)
    (hr : ∀ r' ∈ q'.runs, ∃ r ∈ q.runs, r'.msg = r.msg ∧ r'.ackedSince = r.ackedSince) (hp : q.pel ⊆ q'.pel) :
    q'.PendingInv := by
  intro r' hr' hn
  obtain ⟨r, hr, hm, ha⟩ := hr r' hr'
  exact hm ▸ hp (hi r hr (ha ▸ hn))

theorem PendingInv.ack {q : Queue W} (hi : q.PendingInv) (id : Nat) : (q.ack id).PendingInv := by
  intro r' hr' hn
  obtain ⟨r, hr, rfl⟩ := List.mem_map.1 hr'
  by_cases hm : r.msg = id
  · simp [hm] at hn
  · simp only [hm, ↓reduceIte] at hn ⊢
    exact List.mem_filter.2 ⟨hi r hr hn, by simpa using hm⟩

theorem PendingInv.ackIf {q : Queue W} (hi : q.PendingInv) (ok : Bool) (id : Nat) : (q.ackIf ok id).PendingInv := by
  unfold Queue.ackIf
  split
  · exact hi.ack id
  · exact hi

theorem PendingInv.handleOne {q : Queue W} (hi : q.PendingInv) (e : Entry) (env : W.Env) (ok : Bool)
    (hp : e.id ∈ q.pel) : (q.handleOne e env ok).PendingInv := by
  unfold Queue.handleOne
  split
  · exact hi.ackIf ok e.id
  · split
    · exact hi.ackIf ok e.id
    · rintro r (_ | ⟨_, hr⟩) hn
      · exact hp
      · exact hi r hr hn

theorem mem_middle {pre post : List (Delivery W)} {r x : Delivery W} :
    x ∈ pre ++ r :: post ↔ x = r ∨ x ∈ pre ++ post := by
  simp only [List.mem_append, List.mem_cons]
  tauto

/-- Replacing one delivery by one with the same entry and flag keeps the invariant. -/
theorem PendingInv.replace {q q' : Queue W} (hi : q.PendingInv) {pre post : List (Delivery W)}
    {r r' : Delivery W} (hr : q.runs = pre ++ r :: post) (hq' : q'.runs = pre ++ r' :: post)
    (hm : r'.msg = r.msg) (ha : r'.ackedSince = r.ackedSince) (hp : q'.pel = q.pel) : q'.PendingInv := by
  refine hi.of_runs (fun x hx => ?_) (hp ▸ List.Subset.refl _)
  rw [hq', mem_middle] at hx
  rcases hx with rfl | hx
  · exact ⟨r, by rw [hr]; exact mem_middle.2 (.inl rfl), hm, ha⟩
  · exact ⟨x, by rw [hr]; exact mem_middle.2 (.inr hx), rfl, rfl⟩

theorem PendingInv.acquire {q : Queue W} (hi : q.PendingInv) {pre post : List (Delivery W)} {r : Delivery W}
    (hr : q.runs = pre ++ r :: post) (err : Bool) : (q.acquire pre post r err).PendingInv := by
  unfold Queue.acquire
  split
  · exact hi.replace hr rfl rfl rfl rfl
  · split
    · exact hi.replace hr rfl rfl rfl rfl
    · exact hi.replace hr rfl rfl rfl rfl

theorem PendingInv.release {q : Queue W} (hi : q.PendingInv) (r : Delivery W) : (q.release r).PendingInv := by
  unfold Queue.release
  split
  · exact hi
  · exact hi

end Queue

theorem Queue.Step.pendingInv {W : Worker} {q q' : Queue W} (h : Queue.Step W q q') (hi : q.PendingInv) : q'.PendingInv := by
  cases h with
  | enqueue => exact hi
  | read e env ok _ =>
    have hd : (q.deliver e).PendingInv := hi.of_runs (fun r hr => ⟨r, hr, rfl, rfl⟩) (List.subset_cons_self _ _)
    exact hd.handleOne e env ok (List.mem_cons_self _ _)
  | claim e env ok _ hp => exact hi.handleOne e env ok hp
  | acquire pre post r err hr => exact hi.acquire hr err
  | expire => exact hi
  | call pre post r p p' rd hr => exact hi.replace hr rfl rfl rfl rfl
  | finish pre post r res ok hr =>
    have hd : ({ q with runs := pre ++ post } : Queue W).PendingInv :=
      hi.of_runs (fun x hx => ⟨x, hr ▸ Queue.mem_middle.2 (.inr hx), rfl, rfl⟩) (List.Subset.refl _)
    exact (hd.release r).ackIf _ _

theorem Queue.Reachable.pendingInv {W : Worker} {q : Queue W} (h : Queue.Reachable W q) : q.PendingInv := by
  induction h with
  | refl => intro r hr; cases hr
  | tail _ st ih => exact st.pendingInv ih

namespace Queue

variable {W : Worker}

/-- At `q`, `handleOne` may acknowledge entry `id`: a delivery of it has returned `nil` or `Terminal`, or
its `jobId` is missing or blank. -/
def AckCause (q : Queue W) (id : Nat) : Prop :=
  (∃ r ∈ q.runs, r.msg = id ∧ ∃ res, r.prog = some (.ret res) ∧ res.acks = true) ∨
    ∃ e ∈ q.entries, e.id = id ∧ ∀ v, e.jobId = some v → trimSpace v = ""

theorem ackIf_drop {q : Queue W} {ok : Bool} {id x : Nat} (hin : x ∈ q.pel) (hout : x ∉ (q.ackIf ok id).pel) :
    ok = true ∧ x = id := by
  cases ok
  · exact absurd hin hout
  · refine ⟨rfl, ?_⟩
    simpa [Queue.ackIf, Queue.ack, hin] using hout

theorem handleOne_drop {q : Queue W} {e : Entry} {env : W.Env} {ok : Bool} {x : Nat} (hin : x ∈ q.pel)
    (hout : x ∉ (q.handleOne e env ok).pel) : x = e.id ∧ ∀ v, e.jobId = some v → trimSpace v = "" := by
  unfold Queue.handleOne at hout
  split at hout
  · rename_i hj
    exact ⟨(ackIf_drop hin hout).2, fun v hv => by rw [hj] at hv; cases hv⟩
  · rename_i v hj
    split at hout
    · exact ⟨(ackIf_drop hin hout).2, fun v' hv => by rw [hj] at hv; cases hv; assumption⟩
    · exact absurd hin hout

theorem acquire_pel (q : Queue W) (pre post : List (Delivery W)) (r : Delivery W) (err : Bool) :
    (q.acquire pre post r err).pel = q.pel := by
  unfold Queue.acquire
  split
  · rfl
  · split <;> rfl

theorem release_pel (q : Queue W) (r : Delivery W) : (q.release r).pel = q.pel := by
  unfold Queue.release
  split <;> rfl

/-- **Only `handleOne`'s `XACK` takes an entry out of the pending list**: one step drops an entry only
when a delivery of it returns `nil` or `Terminal`, or when it is delivered with a missing or blank
`jobId`; `XAUTOCLAIM` and a non-terminal return leave it. -/
theorem Step.pel_drop {q q' : Queue W} (h : Queue.Step W q q') {id : Nat} (hin : id ∈ q.pel)
    (hout : id ∉ q'.pel) : q.AckCause id := by
  cases h with
  | read e env ok he =>
    obtain ⟨rfl, hb⟩ := handleOne_drop (List.mem_cons_of_mem _ hin) hout
    exact .inr ⟨e, List.get?_mem he, rfl, hb⟩
  | claim e env ok he =>
    obtain ⟨rfl, hb⟩ := handleOne_drop hin hout
    exact .inr ⟨e, he, rfl, hb⟩
  | acquire pre post r err => exact absurd (by rwa [acquire_pel]) hout
  | finish pre post r res ok hr hp =>
    obtain ⟨hack, rfl⟩ := ackIf_drop (by rwa [release_pel]) hout
    exact .inl ⟨r, hr ▸ mem_middle.2 (.inl rfl), rfl, res, hp, (Bool.and_eq_true _ _ ▸ hack).1⟩
  | _ => exact absurd hin hout

/-- An entry pending at `q₀` and not at `q` left the pending list at one step of the run between them. -/
theorem pel_drop_trace {q₀ q : Queue W} (h : Relation.ReflTransGen (Queue.Step W) q₀ q) {id : Nat}
    (hin : id ∈ q₀.pel) (hout : id ∉ q.pel) :
    ∃ q₁ q₂, Relation.ReflTransGen (Queue.Step W) q₀ q₁ ∧ Queue.Step W q₁ q₂ ∧
      Relation.ReflTransGen (Queue.Step W) q₂ q ∧ id ∈ q₁.pel ∧ id ∉ q₂.pel ∧ q₁.AckCause id := by
  induction h with
  | refl => exact absurd hin hout
  | @tail q₁ q₂ h₁ st ih =>
    by_cases hm : id ∈ q₁.pel
    · exact ⟨q₁, q₂, h₁, st, .refl, hm, hout, st.pel_drop hm hout⟩
    · obtain ⟨a, b, ha, hab, hb, hc⟩ := ih hm
      exact ⟨a, b, ha, hab, hb.tail st, hc⟩

theorem run?_append (q : Queue W) (cs₁ cs₂ : List (QChoice W)) :
    q.run? (cs₁ ++ cs₂) = (q.run? cs₁).bind fun t => t.run? cs₂ := by
  induction cs₁ generalizing q with
  | nil => rfl
  | cons c cs ih =>
    simp only [List.cons_append, run?, Option.bind_assoc]
    congr 1; funext t; exact ih t

end Queue

/-- **An entry stays pending until `handleOne` acknowledges it**: from any reachable state on, a delivery
whose entry was not acknowledged since it began finds it pending, and an entry that leaves the pending
list leaves it at a step where a delivery of it has returned `nil` or `Terminal`, or where its `jobId` is
missing or blank.  A non-terminal return is retried unless another delivery of its entry acknowledged it. -/
theorem pending_until_acked {W : Worker} {q₀ q : Queue W} (h₀ : Queue.Reachable W q₀)
    (h : Relation.ReflTransGen (Queue.Step W) q₀ q) :
    (∀ r ∈ q.runs, r.ackedSince = false → r.msg ∈ q.pel) ∧
    ∀ id ∈ q₀.pel, id ∉ q.pel → ∃ q₁ q₂, Relation.ReflTransGen (Queue.Step W) q₀ q₁ ∧ Queue.Step W q₁ q₂ ∧
      Relation.ReflTransGen (Queue.Step W) q₂ q ∧ id ∈ q₁.pel ∧ id ∉ q₂.pel ∧ q₁.AckCause id :=
  ⟨Queue.Reachable.pendingInv (Relation.ReflTransGen.trans h₀ h), fun _ hin hout => Queue.pel_drop_trace h hin hout⟩

/-- The lease-loser interleaving: a compare run holds `job_1`'s lease past `min_idle`; `XAUTOCLAIM` hands
the same entry to a second run, which fails to take the lease and is acknowledged; the first run's
`Get` then fails. -/
def leaseLoserAcks : List (QChoice compareWorker) :=
  [.enqueue "job_1", .read (⟨.acquired, "out", true, none, true⟩ : CompareEnv) true, .acquire 0 false,
    .claim 0 (⟨.acquired, "out", true, none, true⟩ : CompareEnv) true, .acquire 0 false, .finish 0 true,
    .call 0 .err]

/-- **A run returns a non-terminal error with its entry no longer pending**: a re-claimed copy of the
entry lost the lease and was acknowledged as `Terminal` while the first run was still going. -/
theorem lease_loser_acks_pending : ∃ q : Queue compareWorker, Queue.Reachable compareWorker q ∧
    ∃ r ∈ q.runs, r.prog = some (.ret .transient) ∧ r.msg ∉ q.pel := by
  have hrun : (Queue.init.run? leaseLoserAcks).map (fun q => (q.pel, q.runs.map fun r => (r.msg, r.result?))) =
      some ([], [(0, some .transient)]) := by decide
  obtain ⟨q, hq, hst⟩ := Option.map_eq_some'.1 hrun
  simp only [Prod.mk.injEq] at hst
  obtain ⟨r, rs, hrs, hr, -⟩ := List.map_eq_cons_iff.1 hst.2
  simp only [Prod.mk.injEq] at hr
  refine ⟨q, Queue.run?_steps _ _ _ hq, r, hrs ▸ List.mem_cons_self _ _, Delivery.prog_of_result? hr.2, ?_⟩
  rw [hst.1]
  exact List.not_mem_nil _

/-- The lease-loser run, from the delivery of its entry on: the entry leaves the pending list when the
re-claimed copy that lost the lease returns `Terminal`. -/
theorem pending_until_acked_leaseLoser : ∃ q₀ q : Queue compareWorker, Queue.Reachable compareWorker q₀ ∧
    Relation.ReflTransGen (Queue.Step compareWorker) q₀ q ∧ 0 ∈ q₀.pel ∧ 0 ∉ q.pel ∧
    (∀ r ∈ q.runs, r.ackedSince = false → r.msg ∈ q.pel) ∧
    ∀ id ∈ q₀.pel, id ∉ q.pel → ∃ q₁ q₂, Relation.ReflTransGen (Queue.Step compareWorker) q₀ q₁ ∧
      Queue.Step compareWorker q₁ q₂ ∧ Relation.ReflTransGen (Queue.Step compareWorker) q₂ q ∧ id ∈ q₁.pel ∧
      id ∉ q₂.pel ∧ q₁.AckCause id := by
  have h₀ : (Queue.init.run? (leaseLoserAcks.take 2)).map (·.pel) = some [0] := by decide
  obtain ⟨q₀, hq₀, hp₀⟩ := Option.map_eq_some'.1 h₀
  have h : (q₀.run? (leaseLoserAcks.drop 2)).map (·.pel) = some [] := by
    have e := Queue.run?_append Queue.init (leaseLoserAcks.take 2) (leaseLoserAcks.drop 2)
    rw [List.take_append_drop, hq₀, Option.some_bind] at e
    rw [← e]
    decide
  obtain ⟨q, hq, hp⟩ := Option.map_eq_some'.1 h
  have hr₀ : Queue.Reachable compareWorker q₀ := Queue.run?_steps _ _ _ hq₀
  have hr := Queue.run?_steps _ _ _ hq
  exact ⟨q₀, q, hr₀, hr, by simp [hp₀], by simp [hp], pending_until_acked hr₀ hr⟩

end Guangyang
