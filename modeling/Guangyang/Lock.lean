import Guangyang.Stream
import Mathlib.Data.List.Nodup
/-!
# Lock — `redislock` on a Redis with a clock, and the lease of the stream model

`redislock.Client` takes a job's lock with `SET key token NX` and a TTL, extends it with a script that
runs `PEXPIRE` only while the key holds the caller's token, and releases it with a script that runs `DEL`
only then.  Redis is modelled as a map from keys to a token and the instant its TTL ends, with a clock in
milliseconds; an expired key reads as absent, as Redis treats it.  Each command may be answered, fail
before Redis runs it, or run and lose its reply.

*Exclusion.*  A key held by a token stays with it until its TTL, as last set, runs out or the holder
refreshes or releases it, and every other `Acquire` of it is refused meanwhile (`held_until_expiry`).

*Refinement.*  The stream model keeps one lease per job and lets any lease run out at any time; a held
lease always belongs to a delivery in flight (`Queue.Reachable.leaseInv`).  Against this Redis, with the
worker's `Key` and a distinct token per delivery, every state the consumers reach is one the stream model
reaches, with the live lock keys as its leases, as long as no `Acquire` reply is lost and no `Release`
fails (`faithful_runs_refine`).  A lost `Acquire` reply breaks this: the lock stays with a token no
delivery will release, and the next delivery of the entry is refused the lock and acknowledged (the
example after `lostReply`).
-/
namespace Guangyang
namespace Lock

/-! ## The client and Redis -/

/-- `redislock.Client`: the key prefix it was built with. -/
structure Client where
  pfx : String

/-- The prefix `Key` falls back to when the client's is blank. -/
def defaultPfx : String := "gy:lock:comparejob:"

/-- `Client.Key`. -/
def Client.key (c : Client) (jobID : String) : String :=
  (if trimSpace c.pfx = "" then defaultPfx else trimSpace c.pfx) ++ trimSpace jobID

/-- Two hours in nanoseconds, the TTL `Acquire` and `Refresh` fall back to. -/
def twoHoursNs : Int := 7200000000000

/-- Two hours in milliseconds, the `PEXPIRE` argument `Refresh` falls back to. -/
def twoHoursMs : Int := 7200000

/-- Redis as the lock sees it: the clock in milliseconds, and each key's token and the instant its TTL
ends. -/
structure Server where
  now : Nat
  keys : String → Option (String × Nat)

namespace Server

/-- `GET`: the token a key holds, unless its TTL has ended. -/
def get (s : Server) (k : String) : Option String :=
  match s.keys k with
  | some (v, e) => if s.now ≤ e then some v else none
  | none => none

/-- Store a token under a key with a TTL of `ms` milliseconds. -/
def put (s : Server) (k v : String) (ms : Nat) : Server :=
  { s with keys := Function.update s.keys k (some (v, s.now + ms)) }

/-- `SET k v NX` with a TTL of `ms` milliseconds. -/
def setNX (s : Server) (k v : String) (ms : Nat) : Bool × Server :=
  if s.get k = none then (true, s.put k v ms) else (false, s)

/-- `refreshScript`: `PEXPIRE k px` when `k` holds `v`, answering `1`; `0` otherwise. -/
def refreshScript (s : Server) (k v : String) (px : Nat) : Int × Server :=
  if s.get k = some v then (1, s.put k v px) else (0, s)

/-- `releaseScript`: `DEL k` when `k` holds `v`, answering `1`; `0` otherwise. -/
def releaseScript (s : Server) (k v : String) : Int × Server :=
  if s.get k = some v then (1, { s with keys := Function.update s.keys k none }) else (0, s)

/-- The clock moves on by `dt` milliseconds. -/
def tick (s : Server) (dt : Nat) : Server := { s with now := s.now + dt }

end Server

/-- What the network does to one command: it is answered, it fails before Redis runs it, or Redis runs
it and the reply is lost; `e` is the error the client gets. -/
inductive Net
  | ok
  | failed (e : String)
  | replyLost (e : String)

/-- One command sent over `net`: the client's answer and Redis after it. -/
def Net.send {α : Type} (net : Net) (s : Server) (cmd : Server → α × Server) : Except String α × Server :=
  match net with
  | .ok => (.ok (cmd s).1, (cmd s).2)
  | .failed e => (.error e, s)
  | .replyLost e => (.error e, (cmd s).2)

/-- The TTL in milliseconds go-redis gives `SetNX`: `EX` in seconds for a whole number of seconds, `PX`
in milliseconds otherwise, and at least one millisecond. -/
def setNXMs (ttl : Int) : Nat := max 1 (ttl / 1000000).toNat

/-- `Client.Acquire`: the trimmed key and token, the TTL or two hours, then `SET NX`. -/
def acquire (s : Server) (key token : String) (ttl : Int) (net : Net) : Except String Bool × Server :=
  if trimSpace key = "" ∨ trimSpace token = "" then (.error "lock key/token 为空", s) else
  let ttl := if ttl ≤ 0 then twoHoursNs else ttl
  net.send s (·.setNX (trimSpace key) (trimSpace token) (setNXMs ttl))

/-- `Client.Refresh`: the TTL or two hours, its milliseconds or two hours', then `refreshScript`. -/
def refresh (s : Server) (key token : String) (ttl : Int) (net : Net) : Except String Bool × Server :=
  if trimSpace key = "" ∨ trimSpace token = "" then (.error "lock key/token 为空", s) else
  let ttl := if ttl ≤ 0 then twoHoursNs else ttl
  let px := if ttl / 1000000 ≤ 0 then twoHoursMs else ttl / 1000000
  let r := net.send s (·.refreshScript (trimSpace key) (trimSpace token) px.toNat)
  (r.1.map (· == 1), r.2)

/-- `Client.Release`: `releaseScript`. -/
def release (s : Server) (key token : String) (net : Net) : Except String Bool × Server :=
  if trimSpace key = "" ∨ trimSpace token = "" then (.error "lock key/token 为空", s) else
  let r := net.send s (·.releaseScript (trimSpace key) (trimSpace token))
  (r.1.map (· == 1), r.2)

/-! ## Exclusion -/

/-- A client's call on the lock keys, or the clock moving on. -/
inductive Call
  | acquire (key token : String) (ttl : Int) (net : Net)
  | refresh (key token : String) (ttl : Int) (net : Net)
  | release (key token : String) (net : Net)
  | tick (dt : Nat)

/-- A call's answer, if it has one, and Redis after it. -/
def Call.exec (s : Server) : Call → Option (Except String Bool) × Server
  | .acquire key token ttl net => (some (Lock.acquire s key token ttl net).1, (Lock.acquire s key token ttl net).2)
  | .refresh key token ttl net => (some (Lock.refresh s key token ttl net).1, (Lock.refresh s key token ttl net).2)
  | .release key token net => (some (Lock.release s key token net).1, (Lock.release s key token net).2)
  | .tick dt => (none, s.tick dt)

/-- Redis after a run of calls. -/
def Call.runs (s : Server) (cs : List Call) : Server := cs.foldl (fun s c => (Call.exec s c).2) s

/-- The call is the holder's own `Refresh` or `Release` of the key. -/
def Call.byHolder (k v : String) : Call → Prop
  | .refresh key token _ _ => trimSpace key = k ∧ trimSpace token = v
  | .release key token _ => trimSpace key = k ∧ trimSpace token = v
  | _ => False

instance Call.decByHolder (k v : String) : DecidablePred (Call.byHolder k v)
  | .refresh key token _ _ => inferInstanceAs (Decidable (trimSpace key = k ∧ trimSpace token = v))
  | .release key token _ => inferInstanceAs (Decidable (trimSpace key = k ∧ trimSpace token = v))
  | .acquire .. => isFalse id
  | .tick _ => isFalse id

/-- The call is an `Acquire` of the key. -/
def Call.acquires (k : String) : Call → Prop
  | .acquire key _ _ _ => trimSpace key = k
  | _ => False

namespace Server

theorem get_eq_some {s : Server} {k v : String} {e : Nat} (hk : s.keys k = some (v, e)) (hn : s.now ≤ e) :
    s.get k = some v := by
  simp [get, hk, hn]

theorem get_put_self (s : Server) (k v : String) (ms : Nat) : (s.put k v ms).get k = some v := by
  simp [get, put]

theorem keys_put_ne {s : Server} {k k' v : String} {ms : Nat} (h : k ≠ k') : (s.put k' v ms).keys k = s.keys k :=
  Function.update_noteq h _ _

/-- `SET NX` leaves a live key as it is. -/
theorem setNX_keys {s : Server} {k : String} (hk : s.get k ≠ none) (k' v' : String) (ms : Nat) :
    (s.setNX k' v' ms).2.keys k = s.keys k := by
  unfold setNX
  split
  · exact keys_put_ne (by rintro rfl; contradiction)
  · rfl

/-- The scripts leave a key held by another token as it is. -/
theorem refreshScript_keys {s : Server} {k v k' v' : String} (hk : s.get k = some v) (h : ¬(k' = k ∧ v' = v))
    (px : Nat) : (s.refreshScript k' v' px).2.keys k = s.keys k := by
  unfold refreshScript
  split
  · rename_i h'
    refine keys_put_ne fun hkk => h ⟨hkk.symm, ?_⟩
    rw [← hkk, hk] at h'
    exact (Option.some.inj h').symm
  · rfl

theorem releaseScript_keys {s : Server} {k v k' v' : String} (hk : s.get k = some v) (h : ¬(k' = k ∧ v' = v)) :
    (s.releaseScript k' v').2.keys k = s.keys k := by
  unfold releaseScript
  split
  · rename_i h'
    refine Function.update_noteq (fun hkk => h ⟨hkk.symm, ?_⟩) _ _
    rw [← hkk, hk] at h'
    exact (Option.some.inj h').symm
  · rfl

end Server

theorem Net.send_snd {α : Type} (net : Net) (s : Server) (cmd : Server → α × Server) :
    (net.send s cmd).2 = s ∨ (net.send s cmd).2 = (cmd s).2 := by
  cases net <;> simp [Net.send]

theorem acquire_snd (s : Server) (key token : String) (ttl : Int) (net : Net) :
    (acquire s key token ttl net).2 = s ∨
      ∃ ms, (acquire s key token ttl net).2 = (s.setNX (trimSpace key) (trimSpace token) ms).2 := by
  unfold acquire
  split
  · exact .inl rfl
  · rcases Net.send_snd net s (·.setNX _ _ _) with h | h
    · exact .inl h
    · exact .inr ⟨_, h⟩

theorem refresh_snd (s : Server) (key token : String) (ttl : Int) (net : Net) :
    (refresh s key token ttl net).2 = s ∨
      ∃ px, (refresh s key token ttl net).2 = (s.refreshScript (trimSpace key) (trimSpace token) px).2 := by
  unfold refresh
  split
  · exact .inl rfl
  · rcases Net.send_snd net s (·.refreshScript _ _ _) with h | h
    · exact .inl h
    · exact .inr ⟨_, h⟩

theorem release_snd (s : Server) (key token : String) (net : Net) :
    (release s key token net).2 = s ∨
      (release s key token net).2 = (s.releaseScript (trimSpace key) (trimSpace token)).2 := by
  unfold release
  split
  · exact .inl rfl
  · exact Net.send_snd net s _

/-- An `Acquire` of a live key is refused. -/
theorem acquire_held {s : Server} {key : String} (hk : s.get (trimSpace key) ≠ none) (token : String) (ttl : Int)
    (net : Net) : (acquire s key token ttl net).1 ≠ .ok true := by
  unfold acquire
  split
  · simp
  · cases net <;> simp [Net.send, Server.setNX, hk]

/-- A call other than the holder's own leaves a live key's entry as it is. -/
theorem Call.exec_keys {s : Server} {k v : String} (hk : s.get k = some v) {c : Call} (hc : ¬ c.byHolder k v) :
    (Call.exec s c).2.keys k = s.keys k := by
  cases c with
  | acquire key token ttl net =>
    rcases acquire_snd s key token ttl net with h | ⟨ms, h⟩ <;> simp only [Call.exec, h]
    exact Server.setNX_keys (by simp [hk]) _ _ _
  | refresh key token ttl net =>
    rcases refresh_snd s key token ttl net with h | ⟨px, h⟩ <;> simp only [Call.exec, h]
    exact Server.refreshScript_keys hk hc _
  | release key token net =>
    rcases release_snd s key token net with h | h <;> simp only [Call.exec, h]
    exact Server.releaseScript_keys hk hc
  | tick dt => rfl

theorem Call.now_le_exec (s : Server) (c : Call) : s.now ≤ (Call.exec s c).2.now := by
  have hset : ∀ k v ms, (s.setNX k v ms).2.now = s.now := fun k v ms => by
    unfold Server.setNX; split <;> rfl
  cases c with
  | acquire key token ttl net =>
    rcases acquire_snd s key token ttl net with h | ⟨ms, h⟩ <;> simp [Call.exec, h, hset]
  | refresh key token ttl net =>
    rcases refresh_snd s key token ttl net with h | ⟨px, h⟩ <;> simp only [Call.exec, h]
    · exact le_rfl
    · unfold Server.refreshScript; split <;> exact le_rfl
  | release key token net =>
    rcases release_snd s key token net with h | h <;> simp only [Call.exec, h]
    · exact le_rfl
    · unfold Server.releaseScript; split <;> exact le_rfl
  | tick dt => exact Nat.le_add_right _ _

theorem Call.now_le_runs : ∀ (cs : List Call) (s : Server), s.now ≤ (Call.runs s cs).now
  | [], _ => le_rfl
  | c :: cs, s => (Call.now_le_exec s c).trans (Call.now_le_runs cs _)

/-- **A held lock stays with its holder until its TTL runs out**: over any run of calls in which the
holder neither refreshes nor releases a key it holds until `e`, and which ends by `e`, the key keeps its
token and TTL, and every `Acquire` of it, by any client, is refused. -/
theorem held_until_expiry {k v : String} {e : Nat} (cs : List Call) (hcs : ∀ c ∈ cs, ¬ c.byHolder k v) :
    ∀ {s : Server}, s.keys k = some (v, e) → (Call.runs s cs).now ≤ e →
      (Call.runs s cs).keys k = some (v, e) ∧
      ∀ pre c post, cs = pre ++ c :: post → c.acquires k → (Call.exec (Call.runs s pre) c).1 ≠ some (.ok true) := by
  induction cs with
  | nil => exact fun hk _ => ⟨hk, fun pre c post h => by simp at h⟩
  | cons c cs ih =>
    intro s hk he
    have hnow : (Call.exec s c).2.now ≤ e := (Call.now_le_runs cs _).trans he
    have hlive : s.get k = some v := Server.get_eq_some hk ((Call.now_le_exec s c).trans hnow)
    have hk' : (Call.exec s c).2.keys k = some (v, e) :=
      (Call.exec_keys hlive (hcs c (List.mem_cons_self _ _))).trans hk
    obtain ⟨hfin, hacq⟩ := ih (fun c' hc' => hcs c' (List.mem_cons_of_mem _ hc')) hk' he
    refine ⟨hfin, fun pre c' post h hc' => ?_⟩
    cases pre with
    | nil =>
      obtain ⟨rfl, rfl⟩ := List.cons.inj h
      cases c with
      | acquire key token ttl net =>
        simp only [Call.acquires] at hc'
        subst hc'
        simpa [Call.exec, Call.runs] using acquire_held (by simp [hlive]) token ttl net
      | _ => exact hc'.elim
    | cons p pre =>
      obtain ⟨rfl, h'⟩ := List.cons.inj h
      exact hacq pre c' post h' hc'

/-- A run on a key held by `t0` until 100 ms: another client's `Acquire`, 50 ms of clock, that client's
`Release` and `Refresh`, and a third client's `Acquire` with untrimmed text. -/
def exclusionRun : List Call :=
  [.acquire "k" "t1" 1000 .ok, .tick 50, .release "k" "t1" .ok, .refresh "k" "t1" 10 .ok,
    .acquire " k " "t2" 0 .ok]

theorem held_until_expiry_t0 :
    ((⟨0, fun _ => none⟩ : Server).put "k" "t0" 100).keys "k" = some ("t0", 100) ∧
    (∀ c ∈ exclusionRun, ¬ c.byHolder "k" "t0") ∧
    (Call.runs ((⟨0, fun _ => none⟩ : Server).put "k" "t0" 100) exclusionRun).now ≤ 100 ∧
    (Call.runs ((⟨0, fun _ => none⟩ : Server).put "k" "t0" 100) exclusionRun).keys "k" = some ("t0", 100) ∧
    ∀ pre c post, exclusionRun = pre ++ c :: post → c.acquires "k" →
      (Call.exec (Call.runs ((⟨0, fun _ => none⟩ : Server).put "k" "t0" 100) pre) c).1 ≠ some (.ok true) := by
  have hk : ((⟨0, fun _ => none⟩ : Server).put "k" "t0" 100).keys "k" = some ("t0", 100) := by
    simp [Server.put]
  have hcs : ∀ c ∈ exclusionRun, ¬ c.byHolder "k" "t0" := by decide
  have he : (Call.runs ((⟨0, fun _ => none⟩ : Server).put "k" "t0" 100) exclusionRun).now ≤ 100 := by decide
  exact ⟨hk, hcs, he, held_until_expiry exclusionRun hcs hk he⟩

end Lock

/-! ## The stream model's lease -/

namespace Queue

variable {W : Worker}

/-- Each delivery in flight: its token and its job. -/
def ids (q : Queue W) : List (Nat × String) := q.runs.map fun r => (r.uid, r.jobID)

/-- What the stream model's lease keeps: every held lease is held by a delivery in flight of its job,
deliveries draw distinct tokens below the next fresh one, and their job ids are trimmed. -/
structure LeaseInv (q : Queue W) : Prop where
  owned : ∀ j u, q.lease j = some u → (u, j) ∈ q.ids
  nodup : (q.ids.map Prod.fst).Nodup
  fresh : ∀ p ∈ q.ids, p.1 < q.uids
  trimmed : ∀ p ∈ q.ids, trimSpace p.2 = p.2

theorem LeaseInv.of_ids {q q' : Queue W} (hi : q.LeaseInv) (hids : q'.ids = q.ids) (hu : q'.uids = q.uids)
    (hl : ∀ j u, q'.lease j = some u → (u, j) ∈ q.ids) : q'.LeaseInv where
  owned j u h := hids ▸ hl j u h
  nodup := hids ▸ hi.nodup
  fresh p hp := hu ▸ hi.fresh p (hids ▸ hp)
  trimmed p hp := hi.trimmed p (hids ▸ hp)

/-- A new delivery, with the next fresh token and a trimmed job id, keeps the invariant. -/
theorem LeaseInv.cons_run {q q' : Queue W} (hi : q.LeaseInv) {j : String} (hids : q'.ids = (q.uids, j) :: q.ids)
    (hu : q'.uids = q.uids + 1) (hl : q'.lease = q.lease) (hj : trimSpace j = j) : q'.LeaseInv where
  owned j u h := hids ▸ List.mem_cons_of_mem _ (hi.owned j u (hl ▸ h))
  nodup := by
    rw [hids, List.map_cons, List.nodup_cons]
    refine ⟨fun hm => ?_, hi.nodup⟩
    obtain ⟨p, hp, hpu⟩ := List.mem_map.1 hm
    exact absurd (hi.fresh p hp) (by simp [hpu])
  fresh p hp := by
    rw [hids, List.mem_cons] at hp
    rcases hp with rfl | hp
    · exact hu ▸ Nat.lt_succ_self _
    · exact hu ▸ Nat.lt_succ_of_lt (hi.fresh p hp)
  trimmed p hp := by
    rw [hids, List.mem_cons] at hp
    rcases hp with rfl | hp
    · exact hj
    · exact hi.trimmed p hp

@[simp] theorem ids_ack (q : Queue W) (id : Nat) : (q.ack id).ids = q.ids := by
  simp only [ids, ack, List.map_map]
  congr 1
  funext r
  simp only [Function.comp]
  split <;> rfl

@[simp] theorem ids_ackIf (q : Queue W) (ok : Bool) (id : Nat) : (q.ackIf ok id).ids = q.ids := by
  unfold ackIf; split <;> simp

@[simp] theorem ackIf_lease (q : Queue W) (ok : Bool) (id : Nat) : (q.ackIf ok id).lease = q.lease := by
  unfold ackIf; split <;> rfl

@[simp] theorem ackIf_uids (q : Queue W) (ok : Bool) (id : Nat) : (q.ackIf ok id).uids = q.uids := by
  unfold ackIf; split <;> rfl

theorem ids_replace {q q' : Queue W} {pre post : List (Delivery W)} {r r' : Delivery W}
    (hr : q.runs = pre ++ r :: post) (hq' : q'.runs = pre ++ r' :: post) (hu : r'.uid = r.uid)
    (hj : r'.jobID = r.jobID) : q'.ids = q.ids := by
  simp [ids, hr, hq', hu, hj]

theorem LeaseInv.ackIf {q : Queue W} (hi : q.LeaseInv) (ok : Bool) (id : Nat) : (q.ackIf ok id).LeaseInv :=
  hi.of_ids (by simp) (by simp) fun j u h => hi.owned j u (by simpa using h)

theorem LeaseInv.handleOne {q : Queue W} (hi : q.LeaseInv) (e : Entry) (env : W.Env) (ok : Bool) :
    (q.handleOne e env ok).LeaseInv := by
  unfold Queue.handleOne
  split
  · exact hi.ackIf ok e.id
  · split
    · exact hi.ackIf ok e.id
    · exact hi.cons_run rfl rfl rfl (trimSpace_trimSpace _)

theorem LeaseInv.acquire {q : Queue W} (hi : q.LeaseInv) {pre post : List (Delivery W)} {r : Delivery W}
    (hr : q.runs = pre ++ r :: post) (err : Bool) : (q.acquire pre post r err).LeaseInv := by
  unfold Queue.acquire
  split
  · exact hi.of_ids (ids_replace hr rfl rfl rfl) rfl hi.owned
  · split
    · refine hi.of_ids (ids_replace hr rfl rfl rfl) rfl fun j u h => ?_
      by_cases hj : j = r.jobID
      · subst hj
        simp only [Function.update_same, Option.some.injEq] at h
        subst h
        simp [ids, hr]
      · exact hi.owned j u (by simpa [Function.update_noteq hj] using h)
    · exact hi.of_ids (ids_replace hr rfl rfl rfl) rfl hi.owned

@[simp] theorem release_ids (q : Queue W) (r : Delivery W) : (q.release r).ids = q.ids := by
  unfold Queue.release; split <;> rfl

@[simp] theorem release_uids (q : Queue W) (r : Delivery W) : (q.release r).uids = q.uids := by
  unfold Queue.release; split <;> rfl

@[simp] theorem release_runs (q : Queue W) (r : Delivery W) : (q.release r).runs = q.runs := by
  unfold Queue.release; split <;> rfl

/-- The deferred `Release` frees only its own delivery's lease. -/
theorem release_lease_some {q : Queue W} {r : Delivery W} {j : String} {u : Nat} (h : (q.release r).lease j = some u) :
    q.lease j = some u ∧ ¬(j = r.jobID ∧ u = r.uid) := by
  unfold Queue.release at h
  split at h
  · rename_i hr
    by_cases hj : j = r.jobID
    · subst hj; simp at h
    · exact ⟨by simpa [Function.update_noteq hj] using h, fun h' => hj h'.1⟩
  · rename_i hr
    exact ⟨h, fun ⟨hj, hu⟩ => hr (hj ▸ hu ▸ h)⟩

theorem LeaseInv.finish {q : Queue W} (hi : q.LeaseInv) {pre post : List (Delivery W)} {r : Delivery W}
    (hr : q.runs = pre ++ r :: post) (ok : Bool) :
    (({ q with runs := pre ++ post } : Queue W).release r |>.ackIf ok r.msg).LeaseInv := by
  have hsub : ({ q with runs := pre ++ post } : Queue W).ids.Sublist q.ids := by
    simp only [ids, hr]
    exact ((List.Sublist.refl pre).append (List.sublist_cons_self r post)).map _
  rw [← release_ids (r := r)] at hsub
  refine LeaseInv.ackIf ⟨fun j u h => ?_, (hsub.map _).nodup hi.nodup, fun p hp => by
    rw [release_uids]; exact hi.fresh p (hsub.subset hp), fun p hp => hi.trimmed p (hsub.subset hp)⟩ ok r.msg
  obtain ⟨h, hne⟩ := release_lease_some h
  have hm := hi.owned j u h
  simp only [ids, hr, release_runs, List.mem_map, Queue.mem_middle] at hm ⊢
  obtain ⟨x, hx | hx, hxe⟩ := hm
  · subst hx
    simp only [Prod.mk.injEq] at hxe
    exact absurd ⟨hxe.2.symm, hxe.1.symm⟩ hne
  · exact ⟨x, hx, hxe⟩

theorem Step.leaseInv {q q' : Queue W} (h : Queue.Step W q q') (hi : q.LeaseInv) : q'.LeaseInv := by
  cases h with
  | enqueue => exact hi.of_ids rfl rfl hi.owned
  | read e env ok _ =>
    have hd : (q.deliver e).LeaseInv := hi.of_ids rfl rfl hi.owned
    exact hd.handleOne e env ok
  | claim e env ok => exact hi.handleOne e env ok
  | acquire pre post r err hr => exact hi.acquire hr err
  | expire jobID =>
    refine hi.of_ids rfl rfl fun j u h => hi.owned j u ?_
    by_cases hj : j = jobID
    · subst hj; simp at h
    · simpa [Function.update_noteq hj] using h
  | call pre post r p p' rd hr => exact hi.of_ids (ids_replace hr rfl rfl rfl) rfl hi.owned
  | finish pre post r res ok hr => exact hi.finish hr _

/-- **In the stream model a held lease belongs to a delivery in flight** of its job; deliveries hold
distinct tokens, and their job ids are trimmed. -/
theorem Reachable.leaseInv {q : Queue W} (h : Queue.Reachable W q) : q.LeaseInv := by
  induction h with
  | refl => exact ⟨fun _ _ h => (by cases h), List.nodup_nil, fun _ h => (by cases h), fun _ h => (by cases h)⟩
  | tail _ st ih => exact st.leaseInv ih

end Queue

namespace Lock

/-! ## How a worker names its locks -/

theorem Client.key_trim (c : Client) (j : String) : trimSpace (c.key j) = c.key j ∧ c.key j ≠ "" := by
  have hp : trimSpace (if trimSpace c.pfx = "" then defaultPfx else trimSpace c.pfx) =
      (if trimSpace c.pfx = "" then defaultPfx else trimSpace c.pfx) ∧
      (if trimSpace c.pfx = "" then defaultPfx else trimSpace c.pfx) ≠ "" := by
    split
    · exact ⟨by decide, by decide⟩
    · exact ⟨trimSpace_trimSpace _, ‹_›⟩
  refine ⟨trimSpace_append hp.1 (trimSpace_trimSpace j), fun h => hp.2 (String.ext ?_)⟩
  exact (List.append_eq_nil.1 (congrArg String.data h)).1

theorem Client.key_inj (c : Client) {j j' : String} (hj : trimSpace j = j) (hj' : trimSpace j' = j')
    (h : c.key j = c.key j') : j = j' := by
  have hd := congrArg String.data h
  simp only [Client.key, String.data_append] at hd
  rw [← hj, ← hj']
  exact String.ext (List.append_cancel_left hd)

/-- How one worker names its locks, on trimmed job ids: job `j`'s lock key and delivery `u`'s token.
`Token` draws 16 random bytes, and distinct deliveries are taken to draw distinct tokens. -/
structure Naming where
  key : String → String
  tok : Nat → String
  key_inj : ∀ {j j'}, trimSpace j = j → trimSpace j' = j' → key j = key j' → j = j'
  key_ok : ∀ j, trimSpace (key j) = key j ∧ key j ≠ ""
  tok_inj : tok.Injective
  tok_ok : ∀ u, trimSpace (tok u) = tok u ∧ tok u ≠ ""

/-- The compare worker's naming: `Key(jobID)`. -/
def Naming.compare (c : Client) (tok : Nat → String) (htok : tok.Injective)
    (hok : ∀ u, trimSpace (tok u) = tok u ∧ tok u ≠ "") : Naming :=
  ⟨c.key, tok, c.key_inj, c.key_trim, htok, hok⟩

/-- The paygate worker's naming: `Key("paygate:" + jobID)`. -/
def Naming.paygate (c : Client) (tok : Nat → String) (htok : tok.Injective)
    (hok : ∀ u, trimSpace (tok u) = tok u ∧ tok u ≠ "") : Naming :=
  ⟨fun j => c.key ("paygate:" ++ j), tok, fun {j j'} hj hj' h => by
    have h' := c.key_inj (trimSpace_append (by decide) hj) (trimSpace_append (by decide) hj') h
    exact String.ext (List.append_cancel_left (congrArg String.data h')),
    fun j => c.key_trim _, htok, hok⟩

/-- Tokens for the runs below: `t`, then as many `1` as the delivery's number. -/
def unaryTok (u : Nat) : String := ⟨'t' :: List.replicate u '1'⟩

theorem unaryTok_inj : unaryTok.Injective := fun u u' h => by
  simpa [unaryTok] using congrArg (fun s : String => s.data.length) h

theorem unaryTok_ok (u : Nat) : trimSpace (unaryTok u) = unaryTok u ∧ unaryTok u ≠ "" := by
  refine ⟨trimSpace_of_forall fun c hc => ?_, fun h => by cases congrArg String.data h⟩
  rcases List.mem_cons.1 hc with rfl | hc
  · decide
  · rw [List.eq_of_mem_replicate hc]; decide

/-- The compare worker's naming with the default prefix, and `unaryTok`. -/
def compareNaming : Naming := Naming.compare ⟨defaultPfx⟩ unaryTok unaryTok_inj unaryTok_ok

/-! ## The consumers against Redis -/

/-- What `Acquire` answered, as `Process` reads it. -/
def outcome : Except String Bool → LeaseOutcome
  | .ok true => .acquired
  | .ok false => .notAcquired
  | .error _ => .error

/-- The consumers of one worker's stream against Redis: the stream model's state, whose `lease` field
this system leaves alone, Redis, and the tokens of the deliveries whose `Acquire` answered true, each
with its `Release` deferred and its refresher running. -/
structure Sys (W : Worker) where
  q : Queue W
  redis : Server
  held : List Nat

/-- A choice of the scheduler: a step of the consumers that touches no lock (an enqueue, a read, a claim
or a job-store call), a delivery's `Acquire`, a refresh, the return of a `Process` with its deferred
`Release`, or the clock moving on. -/
inductive Choice (W : Worker)
  | queue (c : QChoice W)
  | acquire (i : Nat) (net : Net)
  | refresh (i : Nat) (net : Net)
  | finish (i : Nat) (ok : Bool) (net : Net)
  | tick (dt : Nat)

/-- No `Acquire` reply is lost and no `Release` fails. -/
def Choice.faithful {W : Worker} : Choice W → Bool
  | .acquire _ (.replyLost _) => false
  | .finish _ _ (.failed _) => false
  | _ => true

namespace Sys

variable {W : Worker}

/-- The consumers before anything runs, on a given Redis. -/
def init (s : Server) : Sys W := ⟨Queue.init, s, []⟩

/-- The scheduler, one choice; `ttl` is the worker's `lockTTL`. -/
def next? (N : Naming) (ttl : Int) (c : Sys W) : Choice W → Option (Sys W)
  | .queue qc =>
    match qc with
    | .acquire _ _ | .expire _ | .finish _ _ => none
    | qc => (c.q.next? qc).map fun q => { c with q := q }
  | .acquire i net => (pick c.q.runs i).bind fun (pre, r, post) =>
    match r.prog with
    | none =>
      let a := acquire c.redis (N.key r.jobID) (N.tok r.uid) ttl net
      some ⟨{ c.q with runs := pre ++ { r with prog := some (W.process r.env r.jobID (outcome a.1)) } :: post },
        a.2, if outcome a.1 = .acquired then r.uid :: c.held else c.held⟩
    | some _ => none
  | .refresh i net => (pick c.q.runs i).bind fun (_, r, _) =>
    if r.uid ∈ c.held then some { c with redis := (refresh c.redis (N.key r.jobID) (N.tok r.uid) ttl net).2 }
    else none
  | .finish i ok net => (pick c.q.runs i).bind fun (pre, r, post) =>
    match r.prog with
    | some (.ret res) =>
      some ⟨({ c.q with runs := pre ++ post } : Queue W).ackIf (res.acks && ok) r.msg,
        if r.uid ∈ c.held then (release c.redis (N.key r.jobID) (N.tok r.uid) net).2 else c.redis,
        c.held.erase r.uid⟩
    | _ => none
  | .tick dt => some { c with redis := c.redis.tick dt }

/-- The scheduler, a list of choices. -/
def run? (N : Naming) (ttl : Int) (c : Sys W) : List (Choice W) → Option (Sys W)
  | [] => some c
  | ch :: chs => (c.next? N ttl ch).bind fun c' => c'.run? N ttl chs

end Sys

/-! ## The consumers refine the stream model -/

namespace Server

theorem get_put_ne {s : Server} {k k' v : String} {ms : Nat} (h : k ≠ k') : (s.put k' v ms).get k = s.get k := by
  simp only [get, keys_put_ne h]
  rfl

theorem get_refreshScript (s : Server) (k v : String) (px : Nat) (k' : String) :
    (s.refreshScript k v px).2.get k' = s.get k' := by
  unfold refreshScript
  split
  · rename_i hv
    by_cases hk : k' = k
    · subst hk; rw [get_put_self, hv]
    · exact get_put_ne hk
  · rfl

theorem get_tick {s : Server} {k : String} {dt : Nat} (h : (s.tick dt).get k ≠ none) :
    (s.tick dt).get k = s.get k := by
  simp only [get, tick] at h ⊢
  rcases hk : s.keys k with _ | ⟨v, e⟩
  · simp [hk] at h
  · simp only [hk] at h ⊢
    by_cases hn : s.now + dt ≤ e
    · rw [if_pos hn, if_pos (by omega)]
    · simp [hn] at h

end Server

theorem refresh_get (s : Server) (key token : String) (ttl : Int) (net : Net) (k : String) :
    (refresh s key token ttl net).2.get k = s.get k := by
  rcases refresh_snd s key token ttl net with h | ⟨px, h⟩ <;> rw [h]
  exact Server.get_refreshScript _ _ _ _ _

theorem acquire_named (N : Naming) {j : String} (s : Server) (u : Nat) (ttl : Int) (net : Net) :
    acquire s (N.key j) (N.tok u) ttl net =
      net.send s (·.setNX (N.key j) (N.tok u) (setNXMs (if ttl ≤ 0 then twoHoursNs else ttl))) := by
  unfold acquire
  rw [if_neg (by rw [(N.key_ok j).1, (N.tok_ok u).1]; exact not_or.2 ⟨(N.key_ok j).2, (N.tok_ok u).2⟩),
    (N.key_ok j).1, (N.tok_ok u).1]

theorem release_named (N : Naming) {j : String} (s : Server) (u : Nat) {net : Net}
    (hnet : ∀ e, net ≠ .failed e) :
    (release s (N.key j) (N.tok u) net).2 = (s.releaseScript (N.key j) (N.tok u)).2 := by
  unfold release
  rw [if_neg (by rw [(N.key_ok j).1, (N.tok_ok u).1]; exact not_or.2 ⟨(N.key_ok j).2, (N.tok_ok u).2⟩),
    (N.key_ok j).1, (N.tok_ok u).1]
  cases net with
  | failed e => exact absurd rfl (hnet e)
  | _ => rfl

end Lock

namespace Queue

variable {W : Worker}

theorem handleOne_lease (q : Queue W) (L : String → Option Nat) (e : Entry) (env : W.Env) (ok : Bool) :
    ({ q with lease := L } : Queue W).handleOne e env ok = { q.handleOne e env ok with lease := L } := by
  unfold Queue.handleOne Queue.ackIf Queue.ack
  split <;> (try split) <;> (try split) <;> rfl

theorem release_eq (q : Queue W) (r : Delivery W) :
    q.release r = { q with lease := if q.lease r.jobID = some r.uid then Function.update q.lease r.jobID none
      else q.lease } := by
  unfold Queue.release; split <;> rfl

/-- Any leases among `js` may run out, an `expire` step each. -/
theorem expire_chain (q : Queue W) (P : String → Prop) [DecidablePred P] :
    ∀ (js : List String) (L : String → Option Nat), Relation.ReflTransGen (Queue.Step W) { q with lease := L }
      { q with lease := fun j => if j ∈ js ∧ P j then none else L j }
  | [], L => by simpa using Relation.ReflTransGen.refl
  | j₀ :: js, L => by
    by_cases hp : P j₀
    · have e : (fun j => if j ∈ j₀ :: js ∧ P j then none else L j) =
          fun j => if j ∈ js ∧ P j then none else Function.update L j₀ none j := by
        funext j
        by_cases hj : j = j₀
        · subst hj; simp [hp]
        · simp [hj, Function.update_noteq hj]
      rw [e]
      exact .head (Queue.Step.expire _ j₀) (expire_chain q P js _)
    · have e : (fun j => if j ∈ j₀ :: js ∧ P j then none else L j) = fun j => if j ∈ js ∧ P j then none else L j := by
        funext j
        by_cases hj : j = j₀
        · subst hj; simp [hp]
        · simp [hj]
      rw [e]
      exact expire_chain q P js L

end Queue

namespace Lock

variable {W : Worker}

/-- The stream model's state the consumers' state stands for: theirs with `L` as its leases, one the
stream model reaches; a job's lease is the token its lock key holds live; and a held lease's delivery has
its `Release` deferred. -/
structure Sim (N : Naming) (c : Sys W) (L : String → Option Nat) : Prop where
  reach : Queue.Reachable W { c.q with lease := L }
  live : ∀ j, trimSpace j = j → c.redis.get (N.key j) = (L j).map N.tok
  held : ∀ j u, L j = some u → u ∈ c.held

/-- A step that touches no lock is the stream model's step, whatever the leases. -/
theorem Sim.queue {N : Naming} {ttl : Int} {c c' : Sys W} {L : String → Option Nat} (hs : Sim N c L)
    {qc : QChoice W} (h : c.next? N ttl (.queue qc) = some c') : Sim N c' L := by
  have hstep : Queue.Step W { c.q with lease := L } { c'.q with lease := L } ∧ c'.redis = c.redis ∧
      c'.held = c.held := by
    cases qc with
    | enqueue jobID =>
      simp only [Sys.next?, Queue.next?] at h
      split at h
      · cases h
      · cases h; exact ⟨Queue.Step.enqueue _ jobID ‹_›, rfl, rfl⟩
    | read env ok =>
      simp only [Sys.next?, Queue.next?, Option.map_map] at h
      obtain ⟨e, he, rfl⟩ := Option.map_eq_some'.1 h
      refine ⟨?_, rfl, rfl⟩
      have := Queue.Step.read { c.q with lease := L } e env ok he
      rwa [show ({ c.q with lease := L } : Queue W).deliver e = { c.q.deliver e with lease := L } from rfl,
        Queue.handleOne_lease] at this
    | claim i env ok =>
      simp only [Sys.next?] at h
      obtain ⟨q', hq', rfl⟩ := Option.map_eq_some'.1 h
      obtain ⟨e, he, hq'⟩ := Option.bind_eq_some.1 hq'
      split at hq'
      · cases hq'
        refine ⟨?_, rfl, rfl⟩
        have := Queue.Step.claim { c.q with lease := L } e env ok (List.get?_mem he) ‹_›
        rwa [Queue.handleOne_lease] at this
      · cases hq'
    | call i rd =>
      simp only [Sys.next?] at h
      obtain ⟨q', hq', rfl⟩ := Option.map_eq_some'.1 h
      obtain ⟨⟨pre, r, post⟩, hp, hq'⟩ := Option.bind_eq_some.1 hq'
      dsimp only at hq'
      split at hq'
      · obtain ⟨p', hc, rfl⟩ := Option.map_eq_some'.1 hq'
        exact ⟨Queue.Step.call { c.q with lease := L } pre post r _ p' rd (pick_eq hp) ‹_› hc, rfl, rfl⟩
      · cases hq'
    | acquire i err => simp [Sys.next?] at h
    | expire jobID => simp [Sys.next?] at h
    | finish i ok => simp [Sys.next?] at h
  obtain ⟨hst, hr, hh⟩ := hstep
  exact ⟨hs.reach.tail hst, hr ▸ hs.live, hh ▸ hs.held⟩

theorem Net.send_ok {α : Type} (s : Server) (cmd : Server → α × Server) :
    Net.ok.send s cmd = (.ok (cmd s).1, (cmd s).2) := rfl

/-- An `Acquire` that is answered, or fails before Redis runs it, is the stream model's. -/
theorem Sim.acquire {N : Naming} {ttl : Int} {c c' : Sys W} {L : String → Option Nat} (hs : Sim N c L)
    {i : Nat} {net : Net} (hnet : ∀ e, net ≠ .replyLost e) (h : c.next? N ttl (.acquire i net) = some c') :
    ∃ L', Sim N c' L' := by
  simp only [Sys.next?] at h
  obtain ⟨⟨pre, r, post⟩, hp, h⟩ := Option.bind_eq_some.1 h
  dsimp only at h
  split at h
  · rename_i hn
    obtain rfl := Option.some.inj h
    have hr := pick_eq hp
    have hj : trimSpace r.jobID = r.jobID :=
      hs.reach.leaseInv.trimmed (r.uid, r.jobID) (by simp [Queue.ids, hr])
    rw [acquire_named]
    cases net with
    | replyLost e => exact absurd rfl (hnet e)
    | failed e =>
      exact ⟨L, hs.reach.tail (Queue.Step.acquire { c.q with lease := L } pre post r true hr hn), hs.live, hs.held⟩
    | ok =>
      have hstep := Queue.Step.acquire { c.q with lease := L } pre post r false hr hn
      simp only [Net.send_ok, Server.setNX]
      cases hL : L r.jobID with
      | none =>
        have hfree : c.redis.get (N.key r.jobID) = none := by rw [hs.live _ hj, hL]; rfl
        simp only [Queue.acquire, hL, Bool.false_eq_true, ↓reduceIte] at hstep
        simp only [hfree, ↓reduceIte, outcome]
        refine ⟨Function.update L r.jobID (some r.uid), hs.reach.tail hstep, fun j' hj' => ?_, fun j' u' h' => ?_⟩
        · by_cases hjj : j' = r.jobID
          · subst hjj; simp [Server.get_put_self]
          · rw [Server.get_put_ne fun e => hjj (N.key_inj hj' hj e), Function.update_noteq hjj, hs.live j' hj']
        · by_cases hjj : j' = r.jobID
          · subst hjj
            simp only [Function.update_same, Option.some.injEq] at h'
            exact h' ▸ List.mem_cons_self _ _
          · rw [Function.update_noteq hjj] at h'
            exact List.mem_cons_of_mem _ (hs.held j' u' h')
      | some u₀ =>
        have hheld : c.redis.get (N.key r.jobID) ≠ none := by rw [hs.live _ hj, hL]; simp
        simp only [Queue.acquire, hL, Bool.false_eq_true, ↓reduceIte] at hstep
        simp only [hheld, ↓reduceIte, outcome]
        exact ⟨L, hs.reach.tail hstep, hs.live, hs.held⟩
  · cases h

/-- A refresh changes no lease. -/
theorem Sim.refresh {N : Naming} {ttl : Int} {c c' : Sys W} {L : String → Option Nat} (hs : Sim N c L)
    {i : Nat} {net : Net} (h : c.next? N ttl (.refresh i net) = some c') : Sim N c' L := by
  simp only [Sys.next?] at h
  obtain ⟨⟨pre, r, post⟩, hp, h⟩ := Option.bind_eq_some.1 h
  dsimp only at h
  split at h
  · obtain rfl := Option.some.inj h
    exact ⟨hs.reach, fun j hj => (refresh_get _ _ _ _ _ _).trans (hs.live j hj), hs.held⟩
  · cases h

theorem Server.get_del (s : Server) (k : String) : ({ s with keys := Function.update s.keys k none } : Server).get k = none := by
  simp [Server.get]

theorem Server.get_del_ne (s : Server) {k k' : String} (h : k' ≠ k) :
    ({ s with keys := Function.update s.keys k none } : Server).get k' = s.get k' := by
  simp only [Server.get, Function.update_noteq h]

/-- The return of a `Process` whose deferred `Release` does not fail is the stream model's. -/
theorem Sim.finish {N : Naming} {ttl : Int} {c c' : Sys W} {L : String → Option Nat} (hs : Sim N c L)
    {i : Nat} {ok : Bool} {net : Net} (hnet : ∀ e, net ≠ .failed e) (h : c.next? N ttl (.finish i ok net) = some c') :
    ∃ L', Sim N c' L' := by
  simp only [Sys.next?] at h
  obtain ⟨⟨pre, r, post⟩, hp, h⟩ := Option.bind_eq_some.1 h
  dsimp only at h
  split at h
  · rename_i res hres
    obtain rfl := Option.some.inj h
    have hr := pick_eq hp
    have hinv := hs.reach.leaseInv
    have hrm : (r.uid, r.jobID) ∈ ({ c.q with lease := L } : Queue W).ids := by simp [Queue.ids, hr]
    have hj : trimSpace r.jobID = r.jobID := hinv.trimmed _ hrm
    have hstep := Queue.Step.finish { c.q with lease := L } pre post r res ok hr hres
    refine ⟨(({ c.q with lease := L } : Queue W).release r).lease, ?_, fun j hj' => ?_, fun j u h' => ?_⟩
    · rw [Queue.release_eq] at hstep ⊢
      generalize (res.acks && ok) = b at hstep ⊢
      cases b <;> exact hs.reach.tail hstep
    · rw [Queue.release_eq]
      dsimp only
      by_cases hu : r.uid ∈ c.held
      · rw [if_pos hu, release_named N _ _ hnet, Server.releaseScript]
        by_cases hL : L r.jobID = some r.uid
        · rw [if_pos (by rw [hs.live _ hj, hL]; rfl), if_pos hL]
          by_cases hjj : j = r.jobID
          · subst hjj; simp [Server.get_del]
          · rw [Server.get_del_ne _ fun e => hjj (N.key_inj hj' hj e), Function.update_noteq hjj, hs.live j hj']
        · rw [if_neg (by rw [hs.live _ hj]; exact fun e => hL (by
            obtain ⟨u, hu', he⟩ := Option.map_eq_some'.1 e
            rw [N.tok_inj he] at hu'; exact hu')), if_neg hL]
          exact hs.live j hj'
      · rw [if_neg hu, if_neg fun hL => hu (hs.held _ _ hL)]
        exact hs.live j hj'
    · obtain ⟨hL, hne⟩ := Queue.release_lease_some h'
      have hm := hinv.owned j u hL
      refine List.mem_erase_of_ne (fun hu => hne ⟨?_, hu⟩) |>.2 (hs.held j u hL)
      have := List.inj_on_of_nodup_map hinv.nodup hm hrm (by simp [hu])
      simp only [Prod.mk.injEq] at this
      exact this.2
  · cases h

/-- The clock runs some locks out: the stream model lets their leases expire. -/
theorem Sim.tick {N : Naming} {ttl : Int} {c c' : Sys W} {L : String → Option Nat} (hs : Sim N c L)
    {dt : Nat} (h : c.next? N ttl (.tick dt) = some c') : ∃ L', Sim N c' L' := by
  obtain rfl := Option.some.inj h
  have hinv := hs.reach.leaseInv
  have hsupp : ∀ j, L j ≠ none → j ∈ c.q.runs.map Delivery.jobID := fun j hj => by
    obtain ⟨u, hu⟩ := Option.ne_none_iff_exists'.1 hj
    have := hinv.owned j u hu
    simp only [Queue.ids, List.mem_map, Prod.mk.injEq] at this
    obtain ⟨r, hr, -, rfl⟩ := this
    exact List.mem_map_of_mem _ hr
  refine ⟨fun j => if j ∈ c.q.runs.map Delivery.jobID ∧ (c.redis.tick dt).get (N.key j) = none then none else L j,
    hs.reach.trans (Queue.expire_chain _ _ _ _), fun j hj => ?_, fun j u h' => ?_⟩
  · split
    · exact ‹_ ∧ _›.2
    · rename_i hn
      by_cases hg : (c.redis.tick dt).get (N.key j) = none
      · have hL : L j = none := by
          by_contra hL; exact hn ⟨hsupp j hL, hg⟩
        rw [hg, hL]; rfl
      · rw [Server.get_tick hg, hs.live j hj]
  · split at h'
    · cases h'
    · exact hs.held j u h'

/-- **One choice that loses no `Acquire` reply and fails no `Release` keeps the simulation.** -/
theorem Sim.next {N : Naming} {ttl : Int} {c c' : Sys W} {L : String → Option Nat} (hs : Sim N c L)
    {ch : Choice W} (hf : ch.faithful = true) (h : c.next? N ttl ch = some c') : ∃ L', Sim N c' L' := by
  cases ch with
  | queue qc => exact ⟨L, hs.queue h⟩
  | acquire i net => exact hs.acquire (fun e he => by subst he; cases hf) h
  | refresh i net => exact ⟨L, hs.refresh h⟩
  | finish i ok net => exact hs.finish (fun e he => by subst he; cases hf) h
  | tick dt => exact hs.tick h

theorem Sim.run? {N : Naming} {ttl : Int} : ∀ (chs : List (Choice W)) {c c' : Sys W} {L : String → Option Nat},
    Sim N c L → (∀ ch ∈ chs, ch.faithful = true) → c.run? N ttl chs = some c' → ∃ L', Sim N c' L'
  | [], _, _, L, hs, _, h => by cases h; exact ⟨L, hs⟩
  | ch :: chs, c, c', L, hs, hf, h => by
    obtain ⟨c₁, h₁, h⟩ := Option.bind_eq_some.1 h
    obtain ⟨L₁, hs₁⟩ := hs.next (hf ch (List.mem_cons_self _ _)) h₁
    exact Sim.run? chs hs₁ (fun ch' hc => hf ch' (List.mem_cons_of_mem _ hc)) h

/-- A Redis where no lock key of the worker is live stands for the stream model's initial state. -/
theorem Sim.init {N : Naming} {s : Server} (hs : ∀ j, trimSpace j = j → s.get (N.key j) = none) :
    Sim N (Sys.init s : Sys W) fun _ => none :=
  ⟨.refl, fun j hj => hs j hj, fun _ _ h => by cases h⟩

/-- The compare message for `job_1` with the compare worker's inputs (its `lease` is what `Acquire` answers). -/
def job1Env : CompareEnv := ⟨.acquired, "out", true, none, true⟩

/-- The lease-loser interleaving against Redis: a compare message for `job_1` is delivered and its run
takes the lock; 30 s later `XAUTOCLAIM` hands the entry to a second run, which is refused the lock and
acknowledged; the first run refreshes its lock, its `Get` fails, and it releases the lock. -/
def leaseLoserLocked : List (Choice compareWorker) :=
  [.queue (.enqueue "job_1"), .queue (.read job1Env true), .acquire 0 .ok, .tick 30000,
    .queue (.claim 0 job1Env true), .acquire 0 .ok, .finish 0 true .ok, .refresh 0 .ok,
    .queue (.call 0 .err), .finish 0 true .ok]

/-- The lost-reply interleaving: a compare message for `job_1` is delivered; Redis takes the lock for the
run's `Acquire` but the reply is lost, so `Process` returns the error and the entry stays pending, with no
`Release` deferred; 30 s later `XAUTOCLAIM` hands the entry to a second run, whose `Acquire` is refused:
`Process` returns `Terminal` and the entry is acknowledged.  No run makes a job-store call. -/
def lostReply : List (Choice compareWorker) :=
  [.queue (.enqueue "job_1"), .queue (.read job1Env true), .acquire 0 (.replyLost "i/o timeout"),
    .finish 0 true .ok, .tick 30000, .queue (.claim 0 job1Env true), .acquire 0 .ok, .finish 0 true .ok]

/-- Without the hypothesis on lost replies the refinement fails: after the lost-reply interleaving the
entry is acknowledged and no run is in flight to release the lock, which the first run's token still
holds live. -/
example : ((Sys.init ⟨0, fun _ => none⟩).run? compareNaming twoHoursNs lostReply).map
      (fun c : Sys compareWorker => (c.q.pel, c.q.runs.length, c.redis.get (compareNaming.key "job_1"))) =
      some ([], 0, some (compareNaming.tok 0)) := by
  decide

end Lock
end Guangyang
