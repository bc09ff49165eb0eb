import Guangyang.Payment
/-!
# Alone — one handler run against the record, with nothing else in between

`Prog.run` runs a single handler against the record under its key, with the store calls that fail.

*Exit states.*  When every `Update` and `Create` succeeds and the worker held its lease, a worker run
that `handleOne` acknowledges leaves the record in its stage's exit state, and the intake answers 200
only with the record in place (`acked_runs_exit`).  Both conditions are needed: the handlers discard the
result of every store write, and a run that lost the lease acknowledges at once
(`write_faults_break_exit`).

*Notify replays.*  Once the notify handler accepted a `SUCCESS` notification, handling it again leaves
the store as it was (`notify_replays_keep_store`); but a first handling that released the job cleared
the amount the replay is checked against (`notify_replay_rejected`).
-/
namespace Guangyang

variable {key : String}

/-! ## The runs' building blocks -/

theorem failRun_run {jobID : String} (hk : World.hits key jobID = true) (msg : String) (gs : List Bool)
    (w : World) : (failRun jobID msg).run key gs [] w = (.terminal, w.write key jobID (.fail msg)) := by
  have h := World.hits_iff.1 hk
  have : trimSpace jobID ≠ "" := h.1 ▸ h.2
  simp [failRun, this, Prog.run]

theorem enqueuePaygate_acks {jobID : String} {ok : Bool} {gs ws : List Bool} {w : World}
    (h : ((enqueuePaygate jobID ok).run key gs ws w).1.acks = true) :
    ((enqueuePaygate jobID ok).run key gs ws w).2 = w.emit (.enqueuePaygate jobID) := by
  cases ok
  · cases h
  · rfl

theorem resultOSSKey_ne_of_trim {j : CompareJob} (h : trimSpace j.resultOSSKey ≠ "") : j.resultOSSKey ≠ "" :=
  fun he => h (by rw [he]; rfl)

/-! ## Exit states -/

/-- The compare stage's exit state, from `w` to `w'`: the record is absent, ready, failed or cancelled,
or it has a result key and the run enqueued a paygate message. -/
def CompareExit (jobID : String) (w w' : World) : Prop :=
  ∀ j, w'.job = some j → j.status = .ready ∨ j.status = .failed ∨ j.status = .cancelled ∨
    j.resultOSSKey ≠ "" ∧ ∃ es, Effect.enqueuePaygate jobID ∈ es ∧ w'.effects = es ++ w.effects

theorem compareExit_of_status {jobID : String} {w w' : World} {j : CompareJob} (hj : w'.job = some j)
    (h : j.status = .ready ∨ j.status = .failed ∨ j.status = .cancelled) : CompareExit jobID w w' := by
  rintro _ h'
  rw [hj, Option.some.injEq] at h'
  subst h'
  rcases h with h | h | h <;> simp [h]

theorem compareExit_of_enqueue {jobID : String} {w₀ w : World} {j : CompareJob} (hj : w.job = some j)
    (hr : j.resultOSSKey ≠ "") (he : w.effects = w₀.effects) :
    CompareExit jobID w₀ (w.emit (.enqueuePaygate jobID)) := by
  intro j' hj'
  rw [World.emit_job, hj, Option.some.injEq] at hj'
  exact .inr (.inr (.inr ⟨hj' ▸ hr, [.enqueuePaygate jobID], by simp, by simp [he]⟩))

/-- The paygate stage's exit state: the record is absent, ready, awaiting payment, failed or cancelled. -/
def PaygateExit (w' : World) : Prop :=
  ∀ j, w'.job = some j → j.status = .ready ∨ j.status = .awaitingPayment ∨ j.status = .failed ∨
    j.status = .cancelled

theorem paygateExit_of_status {w' : World} {j : CompareJob} (hj : w'.job = some j)
    (h : j.status = .ready ∨ j.status = .awaitingPayment ∨ j.status = .failed ∨ j.status = .cancelled) :
    PaygateExit w' := by
  rintro _ h'
  rw [hj, Option.some.injEq] at h'
  exact h' ▸ h

theorem compareReread_exit {jobID : String} (hk : World.hits key jobID = true) (env : CompareEnv)
    {w₀ w : World} {j : CompareJob} (hj : w.job = some j) (hr : j.resultOSSKey ≠ "")
    (he : w.effects = w₀.effects) (gs : List Bool)
    (ha : ((Prog.get jobID (compareReread jobID env)).run key gs [] w).1.acks = true) :
    CompareExit jobID w₀ ((Prog.get jobID (compareReread jobID env)).run key gs [] w).2 := by
  by_cases hg : gs.headD false = true
  · simp only [Prog.run, hg, ↓reduceIte, compareReread] at ha
    cases ha
  simp only [Prog.run, hg, World.read_of_hits hk, hj, compareReread, Bool.false_eq_true, ↓reduceIte] at ha ⊢
  split_ifs at ha ⊢ with hc
  · exact compareExit_of_status hj (by simp [hc])
  · rw [enqueuePaygate_acks ha]
    exact compareExit_of_enqueue hj hr he

theorem compareFound_exit {jobID : String} (hk : World.hits key jobID = true) (env : CompareEnv)
    {w : World} {j : CompareJob} (hj : w.job = some j) (gs : List Bool)
    (ha : ((compareFound jobID env j).run key gs [] w).1.acks = true) :
    CompareExit jobID w ((compareFound jobID env j).run key gs [] w).2 := by
  unfold compareFound at ha ⊢
  by_cases h₁ : j.status = .cancelled
  · rw [if_pos h₁]
    exact compareExit_of_status hj (by simp [h₁])
  rw [if_neg h₁] at ha ⊢
  by_cases h₂ : j.status = .ready ∨ j.status = .failed
  · rw [if_pos h₂]
    exact compareExit_of_status hj (by rcases h₂ with h | h <;> simp [h])
  rw [if_neg h₂] at ha ⊢
  by_cases h₃ : trimSpace j.resultOSSKey ≠ "" ∧ (j.status = .awaitingPayment ∨ j.status = .processing)
  · rw [if_pos h₃] at ha ⊢
    rw [enqueuePaygate_acks ha]
    exact compareExit_of_enqueue hj (resultOSSKey_ne_of_trim h₃.1) rfl
  rw [if_neg h₃] at ha ⊢
  by_cases h₄ : j.file1OSSKey = "" ∨ j.file2OSSKey = ""
  · rw [if_pos h₄, failRun_run hk]
    exact compareExit_of_status (World.write_job_some hk hj _) (by simp [Mutator.apply])
  rw [if_neg h₄] at ha ⊢
  have hm := World.write_job_some hk hj .markProcessing
  cases hf : env.failure with
  | some se =>
    simp only [Prog.run, hf, List.headD_nil, Bool.false_eq_true, ↓reduceIte, List.tail_nil, failRun_run hk]
    exact compareExit_of_status (World.write_job_some hk hm _) (by simp [Mutator.apply])
  | none =>
    simp only [Prog.run, hf, List.headD_nil, Bool.false_eq_true, ↓reduceIte, List.tail_nil] at ha ⊢
    exact compareReread_exit hk env (World.write_job_some hk hm _) (by simp [Mutator.apply, h₁, objectKeyForJob_ne])
      (by simp) gs ha

theorem compareProcess_exit {jobID : String} (hk : World.hits key jobID = true) {env : CompareEnv}
    (hl : env.lease = .acquired) (gs : List Bool) (w : World)
    (ha : ((compareProcess jobID env).run key gs [] w).1.acks = true) :
    CompareExit jobID w ((compareProcess jobID env).run key gs [] w).2 := by
  simp only [compareProcess, hl] at ha ⊢
  by_cases hg : gs.headD false = true
  · simp only [Prog.run, hg, ↓reduceIte] at ha
    cases ha
  simp only [Prog.run, hg, Bool.false_eq_true, ↓reduceIte, World.read_of_hits hk] at ha ⊢
  cases hj : w.job with
  | none => rintro j h; simp [Prog.run, hj] at h
  | some j =>
    simp only [hj] at ha ⊢
    exact compareFound_exit hk env hj gs.tail ha

theorem paygateFound_exit {jobID : String} (hk : World.hits key jobID = true) (env : PaygateEnv)
    {w : World} {j : CompareJob} (hj : w.job = some j) (gs : List Bool)
    (ha : ((paygateFound jobID env j).run key gs [] w).1.acks = true) :
    PaygateExit ((paygateFound jobID env j).run key gs [] w).2 := by
  unfold paygateFound at ha ⊢
  by_cases h₁ : j.status = .cancelled ∨ j.status = .ready ∨ j.status = .failed
  · rw [if_pos h₁]
    exact paygateExit_of_status hj (by rcases h₁ with h | h | h <;> simp [h])
  have hc : j.status ≠ .cancelled := fun h => h₁ (.inl h)
  rw [if_neg h₁] at ha ⊢
  by_cases h₂ : trimSpace j.resultOSSKey = ""
  · rw [if_pos h₂] at ha; cases ha
  rw [if_neg h₂] at ha ⊢
  by_cases h₃ : j.paid
  · rw [if_pos h₃]
    exact paygateExit_of_status (World.write_job_some hk hj _) (by simp [Mutator.apply, hc, CompareJob.released])
  rw [if_neg h₃]
  by_cases h₄ : env.feeFen = 0
  · rw [if_pos h₄]
    exact paygateExit_of_status (World.write_job_some hk hj _) (by simp [Mutator.apply, hc, CompareJob.released])
  rw [if_neg h₄]
  by_cases h₅ : j.status = .awaitingPayment ∧ trimSpace j.codeURL ≠ ""
  · rw [if_pos h₅]
    exact paygateExit_of_status hj (.inr (.inl h₅.1))
  rw [if_neg h₅]
  cases env.order with
  | error e =>
    simp only [failRun_run hk]
    exact paygateExit_of_status (World.write_job_some hk hj _) (by simp [Mutator.apply])
  | ok url =>
    simp only [Prog.run, List.headD_nil, Bool.false_eq_true, ↓reduceIte]
    refine paygateExit_of_status (World.write_job_some hk (j := j) (by simpa using hj) _) ?_
    simp [Mutator.apply, hc, h₃]

theorem paygateProcess_exit {jobID : String} (hk : World.hits key jobID = true) {env : PaygateEnv}
    (hl : env.lease = .acquired) (gs : List Bool) (w : World)
    (ha : ((paygateProcess jobID env).run key gs [] w).1.acks = true) :
    PaygateExit ((paygateProcess jobID env).run key gs [] w).2 := by
  have h := World.hits_iff.1 hk
  have ht : trimSpace jobID ≠ "" := h.1 ▸ h.2
  have hk' : World.hits key (trimSpace jobID) = true := by
    rw [World.hits_iff, trimSpace_trimSpace]; exact h
  simp only [paygateProcess, ht, hl, ↓reduceIte] at ha ⊢
  by_cases hg : gs.headD false = true
  · simp only [Prog.run, hg, ↓reduceIte] at ha
    cases ha
  simp only [Prog.run, hg, Bool.false_eq_true, ↓reduceIte, World.read_of_hits hk'] at ha ⊢
  cases hj : w.job with
  | none => rintro j h; simp [Prog.run, hj] at h
  | some j =>
    simp only [hj] at ha ⊢
    exact paygateFound_exit hk' env hj gs.tail ha

theorem handleCreateJob_exists {jobID : String} (hk : World.hits key jobID = true)
    (key1 key2 name1 name2 : String) (env : IntakeEnv) (gs : List Bool) (w : World)
    (h : ((handleCreateJob jobID key1 key2 name1 name2 env).run key gs [] w).1.status = 200) :
    ((handleCreateJob jobID key1 key2 name1 name2 env).run key gs [] w).2.job ≠ none := by
  obtain ⟨_ | r, e | ⟨⟩⟩ := env
  · simp [handleCreateJob, Prog.run, Reply.status] at h
  · cases hj : w.job <;> simp [handleCreateJob, Prog.run, World.insert, hj, newJob, hk]
  · exact absurd h r.reply_status_ne
  · exact absurd h r.reply_status_ne

/-- **Acknowledged runs leave their stage's exit state**, when no `Update` or `Create` fails (any `Get`
may): the intake answers 200 only with the record in place; a compare run that held its lease and is
acknowledged leaves the record absent, ready, failed or cancelled, or with a result key and a paygate
message enqueued; a paygate run that held its lease and is acknowledged leaves it absent, ready,
awaiting payment, failed or cancelled. -/
theorem acked_runs_exit {jobID : String} (hk : World.hits key jobID = true) (gs : List Bool) (w : World) :
    (∀ key1 key2 name1 name2 env,
      ((handleCreateJob jobID key1 key2 name1 name2 env).run key gs [] w).1.status = 200 →
        ((handleCreateJob jobID key1 key2 name1 name2 env).run key gs [] w).2.job ≠ none) ∧
    (∀ env, env.lease = .acquired → ((compareProcess jobID env).run key gs [] w).1.acks = true →
      CompareExit jobID w ((compareProcess jobID env).run key gs [] w).2) ∧
    (∀ env, env.lease = .acquired → ((paygateProcess jobID env).run key gs [] w).1.acks = true →
      PaygateExit ((paygateProcess jobID env).run key gs [] w).2) :=
  ⟨fun k1 k2 n1 n2 env => handleCreateJob_exists hk k1 k2 n1 n2 env gs w,
    fun _ hl => compareProcess_exit hk hl gs w, fun _ hl => paygateProcess_exit hk hl gs w⟩

theorem acked_runs_exit_job1 : World.hits "job_1" "job_1" = true ∧
    (∀ key1 key2 name1 name2 env,
      ((handleCreateJob "job_1" key1 key2 name1 name2 env).run "job_1" [] [] ⟨none, []⟩).1.status = 200 →
        ((handleCreateJob "job_1" key1 key2 name1 name2 env).run "job_1" [] [] ⟨none, []⟩).2.job ≠ none) ∧
    (∀ env, env.lease = .acquired → ((compareProcess "job_1" env).run "job_1" [] [] ⟨none, []⟩).1.acks = true →
      CompareExit "job_1" ⟨none, []⟩ ((compareProcess "job_1" env).run "job_1" [] [] ⟨none, []⟩).2) ∧
    (∀ env, env.lease = .acquired → ((paygateProcess "job_1" env).run "job_1" [] [] ⟨none, []⟩).1.acks = true →
      PaygateExit ((paygateProcess "job_1" env).run "job_1" [] [] ⟨none, []⟩).2) :=
  ⟨by decide, acked_runs_exit (by decide) [] ⟨none, []⟩⟩

/-- The record the intake creates for `job_1`. -/
def job1 : CompareJob := newJob "job_1" "in/job_1/file1_a.xlsx" "in/job_1/file2_b.xlsx" "a.xlsx" "b.xlsx"

/-- **A failed write, or a lost lease, and the run is acknowledged outside its exit state**: the
intake answers 200 after its `Create` failed; a compare run whose result-location `Update` failed
enqueues the paygate and is acknowledged with no result key; one whose `Worker.fail` write failed is
acknowledged with the record still processing; a paygate run whose awaiting-payment write failed likewise;
and a compare run that lost the lease is acknowledged with the record processing. -/
theorem write_faults_break_exit :
    (let r := (handleCreateJob "job_1" "in/job_1/file1_a.xlsx" "in/job_1/file2_b.xlsx" "a.xlsx" "b.xlsx"
        ⟨none, .ok ()⟩).run "job_1" [] [true] ⟨none, []⟩;
      r.1.status = 200 ∧ r.2.job = none) ∧
    (let r := (compareProcess "job_1" ⟨.acquired, "out", true, none, true⟩).run "job_1" [] [false, true]
        ⟨some job1, []⟩;
      r.1.acks = true ∧ r.2.job.map (fun j => (j.status, j.resultOSSKey)) = some (.processing, "")) ∧
    (let r := (compareProcess "job_1" ⟨.acquired, "out", true, some (.download1, "timeout"), true⟩).run
        "job_1" [] [false, true] ⟨some job1, []⟩;
      r.1.acks = true ∧ r.2.job.map (·.status) = some .processing) ∧
    (let r := (paygateProcess "job_1" ⟨.acquired, 500, 2, .ok ⟨"weixin://wxpay/1", by decide⟩⟩).run
        "job_1" [] [true] ⟨some { job1 with resultOSSKey := "out/job_1/compare.xlsx" }, []⟩;
      r.1.acks = true ∧ r.2.job.map (·.status) = some .processing) ∧
    (let r := (compareProcess "job_1" ⟨.notAcquired, "out", true, none, true⟩).run "job_1" [] []
        ⟨some job1, []⟩;
      r.1.acks = true ∧ r.2.job.map (·.status) = some .processing) := by
  decide

/-! ## Notify replays -/

theorem notifyUpdate_run (jobID : String) (now : Nat) (gs ws : List Bool) (w : World) :
    (notifyUpdate jobID now).run key gs ws w =
      (notifyReply 200 "SUCCESS" "OK", if ws.headD false then w else w.write key jobID (.notifyPaid now)) :=
  rfl

/-- A handling writes nothing but the notify closure. -/
theorem notifyHandle_world (tx : Transaction) (now : Nat) (gs ws : List Bool) (w : World) :
    ((notifyHandle tx now).run key gs ws w).2 = w ∨
      ((notifyHandle tx now).run key gs ws w).2 = w.write key (trimSpace tx.outTradeNo) (.notifyPaid now) := by
  unfold notifyHandle
  split_ifs
  · exact .inl rfl
  · exact .inl rfl
  · simp only [Prog.run]
    generalize (if gs.headD false = true then Read.err else w.read key (trimSpace tx.outTradeNo)) = rd
    have hu : ((notifyUpdate (trimSpace tx.outTradeNo) now).run key gs.tail ws w).2 = w ∨
        ((notifyUpdate (trimSpace tx.outTradeNo) now).run key gs.tail ws w).2 =
          w.write key (trimSpace tx.outTradeNo) (.notifyPaid now) := by
      rw [notifyUpdate_run]; split <;> simp
    cases rd with
    | found j =>
      simp only [notifyChecked]
      split_ifs
      · exact .inl rfl
      · exact hu
    | _ => exact hu

/-- An accepted `SUCCESS` notification, with its `Update` through, ran the notify closure. -/
theorem notifyHandle_accepted {tx : Transaction} {now : Nat} {gs : List Bool} {w : World}
    (hs : toUpper tx.tradeState = "SUCCESS")
    (h : ((notifyHandle tx now).run key gs [] w).1 = notifyReply 200 "SUCCESS" "OK") :
    ((notifyHandle tx now).run key gs [] w).2 = w.write key (trimSpace tx.outTradeNo) (.notifyPaid now) := by
  unfold notifyHandle at h ⊢
  have hne : trimSpace tx.outTradeNo ≠ "" := by
    intro he
    simp [he, Prog.run, notifyReply] at h
  simp only [hne, hs, ne_eq, not_true_eq_false, ↓reduceIte, Prog.run] at h ⊢
  generalize (if gs.headD false = true then Read.err else w.read key (trimSpace tx.outTradeNo)) = rd at h ⊢
  cases rd with
  | found j =>
    simp only [notifyChecked] at h ⊢
    split_ifs at h ⊢
    · simp [Prog.run, notifyReply] at h
    · simp only [notifyUpdate_run, List.headD_nil, Bool.false_eq_true, ↓reduceIte]
  | _ => simp only [notifyChecked, notifyUpdate_run, List.headD_nil, Bool.false_eq_true, ↓reduceIte]

/-- The notify closure a second time changes nothing. -/
theorem write_notifyPaid_twice (id : String) (now now' : Nat) (w : World) :
    (w.write key id (.notifyPaid now)).write key id (.notifyPaid now') = w.write key id (.notifyPaid now) := by
  unfold World.write
  split
  · cases w.job <;> simp [Mutator.notifyPaid_of_paid, Mutator.paid_notifyPaid]
  · rfl

/-- One replay of an accepted `SUCCESS` notification, with any clock and any store faults, leaves the
store as the first handling left it. -/
theorem notifyHandle_replay {tx : Transaction} {now : Nat} {gs : List Bool} {w : World}
    (hs : toUpper tx.tradeState = "SUCCESS")
    (h : ((notifyHandle tx now).run key gs [] w).1 = notifyReply 200 "SUCCESS" "OK")
    (now' : Nat) (gs' ws' : List Bool) :
    ((notifyHandle tx now').run key gs' ws' ((notifyHandle tx now).run key gs [] w).2).2 =
      ((notifyHandle tx now).run key gs [] w).2 := by
  rw [notifyHandle_accepted hs h]
  rcases notifyHandle_world tx now' gs' ws' (w.write key (trimSpace tx.outTradeNo) (.notifyPaid now)) with h' | h'
  · exact h'
  · rw [h', write_notifyPaid_twice]

/-- **Replays of an accepted notification change nothing**: once the notify handler accepted a
`SUCCESS` notification with its `Update` through, handling it again any number of times, each with its
own clock and store faults, leaves the store as the first handling left it. -/
theorem notify_replays_keep_store {tx : Transaction} {now : Nat} {gs : List Bool} {w : World}
    (hs : toUpper tx.tradeState = "SUCCESS")
    (h : ((notifyHandle tx now).run key gs [] w).1 = notifyReply 200 "SUCCESS" "OK")
    (replays : List (Nat × List Bool × List Bool)) :
    replays.foldl (fun w' r => ((notifyHandle tx r.1).run key r.2.1 r.2.2 w').2)
      ((notifyHandle tx now).run key gs [] w).2 = ((notifyHandle tx now).run key gs [] w).2 :=
  List.foldl_fixed' (fun r => notifyHandle_replay hs h r.1 r.2.1 r.2.2) replays

theorem notify_replays_keep_store_job1 : toUpper "SUCCESS" = "SUCCESS" ∧
    ((notifyHandle ⟨"job_1", "SUCCESS", 1⟩ 1).run "job_1" [] [] ⟨some job1, []⟩).1 =
      notifyReply 200 "SUCCESS" "OK" ∧
    ∀ replays : List (Nat × List Bool × List Bool),
      replays.foldl (fun w' r => ((notifyHandle ⟨"job_1", "SUCCESS", 1⟩ r.1).run "job_1" r.2.1 r.2.2 w').2)
        ((notifyHandle ⟨"job_1", "SUCCESS", 1⟩ 1).run "job_1" [] [] ⟨some job1, []⟩).2 =
      ((notifyHandle ⟨"job_1", "SUCCESS", 1⟩ 1).run "job_1" [] [] ⟨some job1, []⟩).2 :=
  ⟨by decide, by decide, notify_replays_keep_store (by decide) (by decide)⟩

/-- The pipeline up to the order: the intake, the compare run, and a paygate run that creates an order
for 500 fen and sets the job awaiting payment. -/
def awaitingPath : List Choice :=
  intakeJob1 ++
  [.spawn (.compareWorker "job_1" ⟨.acquired, "out", true, none, true⟩),
    .next 0 false, .next 0 false, .next 0 false, .next 0 false, .next 0 false, .next 0 false,
    .spawn (.paygateWorker "job_1" ⟨.acquired, 500, 2, .ok ⟨"weixin://wxpay/1", by decide⟩⟩),
    .next 0 false, .next 0 false, .next 0 false, .next 0 false]

/-- **A replay of the paying notification is refused**: the first `SUCCESS` notification for 500 fen
on a job awaiting a 500-fen payment is accepted and releases the job, which clears its amount; handled
again, the handler expects 1 fen and answers 400 "amount mismatch". -/
theorem notify_replay_rejected : ∃ s, Reachable "job_1" (fun fee => 0 < fee) s ∧
    s.world.job.map (fun j => (j.status, j.amountFen)) = some (.awaitingPayment, 500) ∧
    ((notifyHandle ⟨"job_1", "SUCCESS", 500⟩ 3).run "job_1" [] [] s.world).1 = notifyReply 200 "SUCCESS" "OK" ∧
    ((notifyHandle ⟨"job_1", "SUCCESS", 500⟩ 4).run "job_1" [] []
      ((notifyHandle ⟨"job_1", "SUCCESS", 500⟩ 3).run "job_1" [] [] s.world).2).1 =
        notifyReply 400 "FAIL" "amount mismatch" := by
  have hrun : (Sys.run? "job_1" Sys.init awaitingPath).map (fun s =>
      (s.world.job.map (fun j => (j.status, j.amountFen)),
        ((notifyHandle ⟨"job_1", "SUCCESS", 500⟩ 3).run "job_1" [] [] s.world).1,
        ((notifyHandle ⟨"job_1", "SUCCESS", 500⟩ 4).run "job_1" [] []
          ((notifyHandle ⟨"job_1", "SUCCESS", 500⟩ 3).run "job_1" [] [] s.world).2).1)) =
      some (some (.awaitingPayment, 500), notifyReply 200 "SUCCESS" "OK", notifyReply 400 "FAIL" "amount mismatch") := by
    decide
  obtain ⟨s, hs, hst⟩ := Option.map_eq_some'.1 hrun
  simp only [Prod.mk.injEq] at hst
  refine ⟨s, Sys.run?_steps _ _ _ _ _ hs fun a ha => ?_, hst⟩
  simp [awaitingPath, intakeJob1] at ha
  rcases ha with rfl | rfl | rfl <;> simp [Actor.FeeIn]

end Guangyang
