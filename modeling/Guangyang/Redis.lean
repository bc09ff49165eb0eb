import Guangyang.Handlers
import Mathlib.Logic.Relation
import Mathlib.Data.List.Basic
/-!
# Redis — `RedisCompareJobStore` on one key, with `Update`'s optimistic retries

`Update` runs up to 8 attempts of `WATCH key; GET key; MULTI; SET key …; EXEC`, each on the decoding of the
record its `GET` returned; `EXEC` is refused when the key was written after the `WATCH`
(`redis.TxFailedErr`), and the next attempt starts.  `Create` is `SETNX`.  A `Store` holds the key's
value, a version counted up by every write, and every `Update` call in flight; any number of them and of
`Create`s interleave.  Any command may fail with a Redis error, and an `EXEC` may fail after Redis
applied it (its reply is lost).

Ghosts record what happened: the list of writes in commit order (`log`) and, per call, whether its
`EXEC` was applied (`wrote`) and whether Redis ran an `EXEC` whose reply was lost (`lost`).
`update_serial_history` says the log is the serial history: each write after the `Create` is its call's
closure applied once to the decoding of the record before it, a call that returned a job wrote exactly
that job, once, a call that found the key missing or ran out of retries wrote nothing, and a call that
returned a Redis error wrote only when its `EXEC` ran and the reply was lost.  Such a call does write
(`exec_reply_lost`).

`json.Marshal` and `json.Unmarshal` of `compareJobRecord` are taken to round-trip every field kept here.
-/
namespace Guangyang

/-- `compareJobRecord`, the form a job is stored in. -/
structure CompareJobRecord where
  id : String
  status : CompareJobStatus
  file1OSSKey : String
  file2OSSKey : String
  file1Name : String
  file2Name : String
  resultPath : String
  resultOSSKey : String
  amountFen : Nat
  codeURL : String
  paid : Bool
  paidAt : Option Nat
  cancelledAt : Option Nat
  error : String
  deriving DecidableEq, Repr

/-- `recordFromJob`. -/
def recordFromJob (j : CompareJob) : CompareJobRecord :=
  ⟨j.id, j.status, j.file1OSSKey, j.file2OSSKey, j.file1Name, j.file2Name, j.resultPath, j.resultOSSKey,
    j.amountFen, j.codeURL, j.paid, j.paidAt, j.cancelledAt, j.error⟩

/-- `jobFromRecord`. -/
def jobFromRecord (r : CompareJobRecord) : CompareJob :=
  ⟨r.id, r.status, r.file1OSSKey, r.file2OSSKey, r.file1Name, r.file2Name, r.resultPath, r.resultOSSKey,
    r.amountFen, r.codeURL, r.paid, r.paidAt, r.cancelledAt, r.error⟩

@[simp] theorem jobFromRecord_recordFromJob (j : CompareJob) : jobFromRecord (recordFromJob j) = j := rfl

/-- Why `Update` returned an error. -/
inductive UpdateError
  /-- An error from a Redis command (`WATCH`, `GET`, `EXEC`), with its text. -/
  | redis (e : String)
  /-- `errors.New("redis update retry exceeded")`, after 8 refused `EXEC`s. -/
  | retryExceeded
  deriving DecidableEq, Repr

/-- What `Update` returns: `(job, true, nil)`, `(nil, false, nil)`, or `(nil, false, err)`. -/
inductive UpdateResult
  | ok (j : CompareJob)
  | missing
  | error (e : UpdateError)
  deriving DecidableEq, Repr

/-- Where an `Update` call is. -/
inductive UpdatePhase
  /-- About to `WATCH`, on attempt `n`. -/
  | watch (n : Nat)
  /-- Watched while the key was at version `v`; about to `GET`. -/
  | get (n v : Nat)
  /-- Ran the closure on the decoding of what `GET` returned, giving `j`; about to `EXEC`. -/
  | exec (n v : Nat) (j : CompareJob)
  /-- Returned. -/
  | done (r : UpdateResult)
  deriving DecidableEq, Repr

/-- One `Update(id, fn)` call. -/
structure UpdateCall where
  m : Mutator
  phase : UpdatePhase
  /-- Ghost: an `EXEC` of this call was applied. -/
  wrote : Bool
  /-- Ghost: Redis ran an `EXEC` of this call and its reply was lost. -/
  lost : Bool

/-- A write to the key, in the ghost log: the intake's `Create`, or the `EXEC` of the call at a position. -/
inductive Write
  | create (r : CompareJobRecord)
  | commit (call : Nat) (m : Mutator) (r : CompareJobRecord)

/-- The value a write stored. -/
def Write.record : Write → CompareJobRecord
  | .create r => r
  | .commit _ _ r => r

/-- Whether the write is an `EXEC` of the call at position `i`. -/
def Write.isCommitOf (i : Nat) : Write → Bool
  | .create _ => false
  | .commit c _ _ => c == i

/-- The key's value and version, the ghost log of writes (newest first), and the `Update` calls. -/
structure Store where
  val : Option CompareJobRecord
  version : Nat
  log : List Write
  calls : List UpdateCall

namespace Store

def init : Store := ⟨none, 0, [], []⟩

/-- The call at position `i` is now `c`. -/
def setCall (s : Store) (i : Nat) (c : UpdateCall) : Store := { s with calls := s.calls.set i c }

/-- `SETNX key value`: written only when the key is absent. -/
def setNX (s : Store) (r : CompareJobRecord) : Store :=
  match s.val with
  | none => { s with val := some r, version := s.version + 1, log := .create r :: s.log }
  | some _ => s

/-- An applied `EXEC` of the call at position `i`: `SET key (encoding of j)`; the call returns `res`, and
`lost` says whether the reply was lost. -/
def commit (s : Store) (i : Nat) (c : UpdateCall) (j : CompareJob) (res : UpdateResult) (lost : Bool) : Store :=
  { s with val := some (recordFromJob j), version := s.version + 1,
           log := .commit i c.m (recordFromJob j) :: s.log,
           calls := s.calls.set i { c with phase := .done res, wrote := true, lost := lost } }

/-- `EXEC` of attempt `n`, watched at version `v`: applied when the key is still at `v`, refused
otherwise (then the next attempt, or the retry error after the 8th); `err` is a Redis error, and whether
Redis ran the `EXEC` before it (its reply lost). -/
def exec (s : Store) (i : Nat) (c : UpdateCall) (n v : Nat) (j : CompareJob) : Option (Bool × String) → Store
  | none =>
    if s.version = v then s.commit i c j (.ok j) false
    else if n + 1 < 8 then s.setCall i { c with phase := .watch (n + 1) }
    else s.setCall i { c with phase := .done (.error .retryExceeded) }
  | some (ran, e) =>
    if ran ∧ s.version = v then s.commit i c j (.error (.redis e)) ran
    else s.setCall i { c with phase := .done (.error (.redis e)), lost := ran }

end Store

/-- A step of the clients: a call starts, a `Create` runs, or the call at a position sends its next
command (with the Redis error it gets, if any). -/
inductive StoreChoice
  | start (m : Mutator)
  | create (j : CompareJob)
  | watch (i : Nat) (err : Option String)
  | get (i : Nat) (err : Option String)
  | exec (i : Nat) (err : Option (Bool × String))

namespace Store

/-- One step. -/
def next? (s : Store) : StoreChoice → Option Store
  | .start m => some { s with calls := s.calls ++ [⟨m, .watch 0, false, false⟩] }
  | .create j => some (s.setNX (recordFromJob j))
  | .watch i err => s.calls[i]?.bind fun c =>
    match c.phase, err with
    | .watch n, none => some (s.setCall i { c with phase := .get n s.version })
    | .watch _, some e => some (s.setCall i { c with phase := .done (.error (.redis e)) })
    | _, _ => none
  | .get i err => s.calls[i]?.bind fun c =>
    match c.phase, err, s.val with
    | .get _ _, some e, _ => some (s.setCall i { c with phase := .done (.error (.redis e)) })
    | .get _ _, none, none => some (s.setCall i { c with phase := .done .missing })
    | .get n v, none, some r => some (s.setCall i { c with phase := .exec n v (c.m.apply (jobFromRecord r)) })
    | _, _, _ => none
  | .exec i err => s.calls[i]?.bind fun c =>
    match c.phase with
    | .exec n v j => some (s.exec i c n v j err)
    | _ => none

/-- The clients' steps. -/
def Step (s t : Store) : Prop := ∃ c, s.next? c = some t

/-- The states reached from an absent key. -/
def Reachable (s : Store) : Prop := Relation.ReflTransGen Step init s

/-- The scheduler, a list of choices. -/
def run? (s : Store) : List StoreChoice → Option Store
  | [] => some s
  | c :: cs => (s.next? c).bind fun t => t.run? cs

theorem run?_reachable : ∀ (cs : List StoreChoice) (s : Store), init.run? cs = some s → Reachable s := by
  suffices h : ∀ (cs : List StoreChoice) (s t : Store), s.run? cs = some t → Relation.ReflTransGen Step s t from
    fun cs s => h cs init s
  intro cs
  induction cs with
  | nil => intro s t h; cases h; exact .refl
  | cons c cs ih =>
    intro s t h
    obtain ⟨u, hu, ht⟩ := Option.bind_eq_some.1 h
    exact .head ⟨c, hu⟩ (ih u t ht)

end Store

/-! ## The serial history -/

/-- The log (newest first) is a serial history: the first write is the `Create`, and each later one is
the `EXEC` of a call whose closure, applied once to the decoding of the record before, gives the record
it stored. -/
def Serial : List Write → Prop
  | [] => True
  | [w] => ∃ r, w = .create r
  | w :: w' :: rest =>
    (∃ i m, w = .commit i m (recordFromJob (m.apply (jobFromRecord w'.record)))) ∧ Serial (w' :: rest)

/-- How many writes of the log are `EXEC`s of the call at position `i`. -/
def commitsOf (i : Nat) (log : List Write) : Nat := log.countP (Write.isCommitOf i)

@[simp] theorem commitsOf_commit_self (i : Nat) (m : Mutator) (r : CompareJobRecord) (log : List Write) :
    commitsOf i (.commit i m r :: log) = commitsOf i log + 1 := by
  simp [commitsOf, List.countP_cons, Write.isCommitOf]

theorem commitsOf_cons_of_not {i : Nat} {w : Write} (h : w.isCommitOf i = false) (log : List Write) :
    commitsOf i (w :: log) = commitsOf i log := by
  simp [commitsOf, List.countP_cons, h]

namespace Store

/-- What a call's phase says about the store. -/
def PhaseInv (s : Store) (i : Nat) (c : UpdateCall) : UpdatePhase → Prop
  | .watch _ => c.wrote = false
  | .get _ v => c.wrote = false ∧ v ≤ s.version
  | .exec _ v j =>
    c.wrote = false ∧ v ≤ s.version ∧ (s.version = v → ∃ r, s.val = some r ∧ j = c.m.apply (jobFromRecord r))
  | .done (.ok j) => c.wrote = true ∧ Write.commit i c.m (recordFromJob j) ∈ s.log
  | .done .missing => c.wrote = false
  | .done (.error .retryExceeded) => c.wrote = false
  | .done (.error (.redis _)) => c.wrote = true → c.lost = true

/-- The call at position `i` wrote once if it wrote, and its phase agrees with the store. -/
def CallInv (s : Store) (i : Nat) (c : UpdateCall) : Prop :=
  commitsOf i s.log = (if c.wrote then 1 else 0) ∧ s.PhaseInv i c c.phase

/-- The store's invariant. -/
structure Inv (s : Store) : Prop where
  val : s.val = s.log.head?.map Write.record
  version : s.version = s.log.length
  serial : Serial s.log
  calls : ∀ i c, s.calls[i]? = some c → s.CallInv i c
  /-- No write is an `EXEC` of a call that does not exist. -/
  bound : ∀ i, s.calls.length ≤ i → commitsOf i s.log = 0

/-- A call that has not written may end in any Redis error. -/
theorem CallInv.redisError {s : Store} {i : Nat} {c : UpdateCall} (hn : commitsOf i s.log = if c.wrote then 1 else 0)
    (hw : c.wrote = false) (e : String) (lost : Bool) :
    s.CallInv i { c with phase := .done (.error (.redis e)), lost := lost } :=
  ⟨hn, fun h => absurd h (Bool.eq_false_iff.1 hw)⟩

theorem init_inv : init.Inv :=
  ⟨rfl, rfl, trivial, fun _ _ h => (by cases h), fun _ _ => rfl⟩

/-- A write that is not an `EXEC` of the call keeps the call's invariant. -/
theorem CallInv.write {s s' : Store} {k : Nat} {c : UpdateCall} (h : s.CallInv k c) {w : Write}
    (hl : s'.log = w :: s.log) (hw : w.isCommitOf k = false) (hv : s'.version = s.version + 1) :
    s'.CallInv k c := by
  obtain ⟨hn, hp⟩ := h
  refine ⟨by rw [hl, commitsOf_cons_of_not hw]; exact hn, ?_⟩
  unfold PhaseInv at hp ⊢
  rw [hv, hl]
  split at hp
  · exact hp
  · exact ⟨hp.1, by omega⟩
  · exact ⟨hp.1, by omega, fun h => absurd h (by omega)⟩
  · exact ⟨hp.1, List.mem_cons_of_mem _ hp.2⟩
  · exact hp
  · exact hp
  · exact hp

theorem Inv.setCall {s : Store} (hi : s.Inv) {i : Nat} {c c' : UpdateCall} (hc : s.calls[i]? = some c)
    (h : s.CallInv i c') : (s.setCall i c').Inv := by
  refine ⟨hi.val, hi.version, hi.serial, fun k ck hk => ?_,
    fun k hk => hi.bound k (by simpa [Store.setCall] using hk)⟩
  simp only [Store.setCall] at hk
  by_cases hik : i = k
  · subst hik
    simp only [List.getElem?_set_self', hc, Option.map_eq_map, Option.map_some', Function.const_apply,
      Option.some.injEq] at hk
    exact hk ▸ h
  · rw [List.getElem?_set_ne hik] at hk
    exact hi.calls k ck hk

theorem Inv.setNX {s : Store} (hi : s.Inv) (r : CompareJobRecord) : (s.setNX r).Inv := by
  unfold Store.setNX
  split
  · rename_i hv
    have hl : s.log = [] := by
      have := hi.val; rw [hv] at this
      cases hlog : s.log with
      | nil => rfl
      | cons w rest => rw [hlog] at this; cases this
    refine ⟨rfl, by simp [hi.version], by rw [hl]; exact ⟨r, rfl⟩, fun k ck hk => ?_, fun k hk => ?_⟩
    · exact (hi.calls k ck hk).write rfl rfl rfl
    · show commitsOf k (.create r :: s.log) = 0
      rw [commitsOf_cons_of_not (show Write.isCommitOf k (.create r) = false from rfl)]
      exact hi.bound k hk
  · exact hi

theorem Inv.start {s : Store} (hi : s.Inv) (m : Mutator) :
    ({ s with calls := s.calls ++ [⟨m, .watch 0, false, false⟩] } : Store).Inv := by
  refine ⟨hi.val, hi.version, hi.serial, fun k ck hk => ?_, fun k hk => hi.bound k ?_⟩
  swap
  · simp only [List.length_append, List.length_singleton] at hk
    omega
  rcases Nat.lt_or_ge k s.calls.length with hlt | hge
  · rw [List.getElem?_append_left hlt] at hk
    exact hi.calls k ck hk
  · rw [List.getElem?_append_right hge] at hk
    obtain ⟨hz, rfl⟩ : k - s.calls.length = 0 ∧ ⟨m, .watch 0, false, false⟩ = ck := by
      simpa [List.getElem?_cons] using hk
    exact ⟨by simpa using hi.bound k hge, rfl⟩

theorem Inv.commit {s : Store} (hi : s.Inv) {i : Nat} {c : UpdateCall} (hc : s.calls[i]? = some c)
    {n v : Nat} {j : CompareJob} (hp : c.phase = .exec n v j) (hv : s.version = v) {res : UpdateResult}
    {lost : Bool} (hres : res = .ok j ∨ (∃ e, res = .error (.redis e)) ∧ lost = true) :
    (s.commit i c j res lost).Inv := by
  obtain ⟨hn, hph⟩ := hi.calls i c hc
  rw [hp] at hph
  obtain ⟨hw, -, hr⟩ := hph
  obtain ⟨r, hval, rfl⟩ := hr hv
  have hi_lt : i < s.calls.length := (List.getElem?_eq_some_iff.1 hc).1
  have hzero : commitsOf i s.log = 0 := by simpa only [hw, Bool.false_eq_true, ↓reduceIte] using hn
  refine ⟨rfl, by simp [Store.commit, hi.version], ?_, fun k ck hk => ?_, fun k hk => ?_⟩
  · obtain ⟨w, rest, hl, hwr⟩ : ∃ w rest, s.log = w :: rest ∧ w.record = r := by
      have := hi.val; rw [hval] at this
      cases hlog : s.log with
      | nil => rw [hlog] at this; cases this
      | cons w rest => rw [hlog] at this; exact ⟨w, rest, rfl, (Option.some.inj this).symm⟩
    show Serial (_ :: s.log)
    rw [hl]
    exact ⟨⟨i, c.m, by rw [hwr]⟩, hl ▸ hi.serial⟩
  · simp only [Store.commit] at hk
    by_cases hik : i = k
    · subst hik
      simp only [List.getElem?_set_self', hc, Option.map_eq_map, Option.map_some', Function.const_apply,
        Option.some.injEq] at hk
      subst hk
      refine ⟨by simp [Store.commit, hzero], ?_⟩
      rcases hres with rfl | ⟨⟨e, rfl⟩, hl⟩
      · exact ⟨rfl, List.mem_cons_self _ _⟩
      · exact fun _ => hl
    · rw [List.getElem?_set_ne hik] at hk
      exact (hi.calls k ck hk).write rfl (by simp [Write.isCommitOf, hik]) rfl
  · have hk' : s.calls.length ≤ k := by simpa [Store.commit] using hk
    have hik : i ≠ k := by omega
    rw [Store.commit, commitsOf_cons_of_not (by simp [Write.isCommitOf, hik])]
    exact hi.bound k hk'

theorem Inv.step {s t : Store} (hi : s.Inv) {ch : StoreChoice} (h : s.next? ch = some t) : t.Inv := by
  cases ch with
  | start m => cases h; exact hi.start m
  | create j => cases h; exact hi.setNX _
  | watch i err =>
    obtain ⟨c, hc, h⟩ := Option.bind_eq_some.1 h
    obtain ⟨hn, hp⟩ := hi.calls i c hc
    split at h <;> cases h
    · rename_i hph; rw [hph] at hp; exact hi.setCall hc ⟨hn, hp, le_refl _⟩
    · rename_i hph; rw [hph] at hp; exact hi.setCall hc (CallInv.redisError hn hp _ _)
  | get i err =>
    obtain ⟨c, hc, h⟩ := Option.bind_eq_some.1 h
    obtain ⟨hn, hp⟩ := hi.calls i c hc
    split at h <;> cases h
    · rename_i hph; rw [hph] at hp; exact hi.setCall hc (CallInv.redisError hn hp.1 _ _)
    · rename_i hph _; rw [hph] at hp; exact hi.setCall hc ⟨hn, hp.1⟩
    · rename_i _ n v r hph hval; rw [hph] at hp
      exact hi.setCall hc ⟨hn, hp.1, hp.2, fun _ => ⟨r, hval, rfl⟩⟩
  | exec i err =>
    obtain ⟨c, hc, h⟩ := Option.bind_eq_some.1 h
    obtain ⟨hn, hp⟩ := hi.calls i c hc
    split at h <;> cases h
    rename_i n v j hph
    rw [hph] at hp
    rcases err with _ | ⟨applied, e⟩
    · simp only [Store.exec]
      split_ifs with hv hlt
      · exact hi.commit hc hph hv (.inl rfl)
      · exact hi.setCall hc ⟨hn, hp.1⟩
      · exact hi.setCall hc ⟨hn, hp.1⟩
    · simp only [Store.exec]
      split_ifs with hv
      · exact hi.commit hc hph hv.2 (.inr ⟨⟨e, rfl⟩, hv.1⟩)
      · exact hi.setCall hc (CallInv.redisError hn hp.1 _ _)

theorem Reachable.inv {s : Store} (h : s.Reachable) : s.Inv := by
  induction h with
  | refl => exact init_inv
  | tail _ st ih => obtain ⟨_, hst⟩ := st; exact ih.step hst

end Store

/-- **`Update` calls are linearizable**, over every interleaving of `Update`s and `Create`s on the key and
every Redis error: the key holds the last write of the log; the log is the serial history (after the
`Create`, each write is one call's closure applied once to the decoding of the record before it); each
call wrote at most once; a call that returned a job wrote exactly that job; a call that found the key
missing, or ran out of retries, wrote nothing; a call that returned a Redis error wrote only when Redis ran
its `EXEC` and the reply was lost. -/
theorem update_serial_history {s : Store} (hs : s.Reachable) :
    s.val = s.log.head?.map Write.record ∧ Serial s.log ∧
    ∀ i c, s.calls[i]? = some c → commitsOf i s.log ≤ 1 ∧
      (∀ j, c.phase = .done (.ok j) → commitsOf i s.log = 1 ∧ Write.commit i c.m (recordFromJob j) ∈ s.log) ∧
      (c.phase = .done .missing → commitsOf i s.log = 0) ∧
      (c.phase = .done (.error .retryExceeded) → commitsOf i s.log = 0) ∧
      (∀ e, c.phase = .done (.error (.redis e)) → commitsOf i s.log = 1 → c.lost = true) := by
  have hi := hs.inv
  refine ⟨hi.val, hi.serial, fun i c hc => ?_⟩
  obtain ⟨hn, hp⟩ := hi.calls i c hc
  refine ⟨by rw [hn]; split <;> omega, fun j hj => ?_, fun hj => ?_, fun hj => ?_, fun e hj h1 => ?_⟩ <;>
    simp only [hj, Store.PhaseInv] at hp
  · exact ⟨by simp [hn, hp.1], hp.2⟩
  · simp [hn, hp]
  · simp [hn, hp]
  · exact hp (by by_contra hw; simp [hn, hw] at h1)

/-- The intake's `Create`, then one `Update` with the notify closure, whose `EXEC` goes through or whose
reply is lost. -/
def createThenUpdate (reply : Option (Bool × String)) : List StoreChoice :=
  [.create (newJob "job_1" "in/job_1/file1_a.xlsx" "in/job_1/file2_b.xlsx" "a.xlsx" "b.xlsx"),
    .start (.notifyPaid 1), .watch 0 none, .get 0 none, .exec 0 reply]

theorem update_serial_history_one : ∃ s : Store, s.Reachable ∧ commitsOf 0 s.log = 1 ∧
    s.val = s.log.head?.map Write.record ∧ Serial s.log ∧
    ∀ i c, s.calls[i]? = some c → commitsOf i s.log ≤ 1 ∧
      (∀ j, c.phase = .done (.ok j) → commitsOf i s.log = 1 ∧ Write.commit i c.m (recordFromJob j) ∈ s.log) ∧
      (c.phase = .done .missing → commitsOf i s.log = 0) ∧
      (c.phase = .done (.error .retryExceeded) → commitsOf i s.log = 0) ∧
      (∀ e, c.phase = .done (.error (.redis e)) → commitsOf i s.log = 1 → c.lost = true) := by
  have hrun : (Store.init.run? (createThenUpdate none)).map (fun s => commitsOf 0 s.log) = some 1 := by decide
  obtain ⟨s, hs, h1⟩ := Option.map_eq_some'.1 hrun
  have hr := Store.run?_reachable _ s hs
  exact ⟨s, hr, h1, update_serial_history hr⟩

/-- **A call that returns an error can have written**: its `EXEC` was applied and its reply lost. -/
theorem exec_reply_lost : ∃ s : Store, s.Reachable ∧ ∃ c, s.calls[0]? = some c ∧
    c.phase = .done (.error (.redis "i/o timeout")) ∧ commitsOf 0 s.log = 1 := by
  have hrun : (Store.init.run? (createThenUpdate (some (true, "i/o timeout")))).map
      (fun s => (s.calls.map (·.phase), commitsOf 0 s.log)) =
      some ([.done (.error (.redis "i/o timeout"))], 1) := by decide
  obtain ⟨s, hs, hst⟩ := Option.map_eq_some'.1 hrun
  simp only [Prod.mk.injEq] at hst
  obtain ⟨c, rest, hcs, hc, -⟩ := List.map_eq_cons_iff.1 hst.1
  exact ⟨s, Store.run?_reachable _ s hs, c, by simp [hcs], hc, hst.2⟩

end Guangyang
