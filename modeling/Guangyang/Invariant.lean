import Guangyang.Pipeline
/-!
# Invariant — the job record's invariant over every interleaving (spec §3)

A run decides on what it read and writes later, on the record as it is then.  `Good key a rds p w`
says what run `a`'s remaining calls `p` promise once the record has reached `w`, whatever the other
runs do meanwhile, as long as they only move the record forward (`Later`: a record stays, `Paid` stays
set, effects accumulate).  Each write promises `Guar`: it keeps the record invariant `JobInv`, and it
sets `Paid` only for a notification the handler accepted (`PaysFor`) or on the paygate's free path.

Every handler's program is `Good` from any state (`Actor.good_program`), and a step keeps `Inv` and
every run's `Good` (`Step.sysInv`); so the invariant holds in every reachable state
(`reachable_jobInvariant`).
-/
namespace Guangyang

variable {key : String}

/-- **The record invariant** (spec §3, 1 and 2), with the two facts that carry it: no handler writes a
local `ResultPath`, and a recorded amount is the fee of an order the paygate created. -/
structure JobInv (key : String) (effects : List Effect) (j : CompareJob) : Prop where
  ready : j.status = .ready → j.resultOSSKey ≠ "" ∧ j.paid = true
  awaiting : j.status = .awaitingPayment → j.resultOSSKey ≠ "" ∧ j.paid = false ∧ j.codeURL ≠ ""
  resultPath : j.resultPath = ""
  amount : j.amountFen = 0 ∨ Effect.createOrder key j.amountFen ∈ effects

/-- The stored record, if any, satisfies `JobInv`. -/
def Inv (key : String) (w : World) : Prop := ∀ j, w.job = some j → JobInv key w.effects j

/-- How the world may move while a run waits: a record stays and keeps `Paid`, effects accumulate. -/
def Later (w w' : World) : Prop :=
  (∀ j, w.job = some j → ∃ j', w'.job = some j' ∧ (j.paid = true → j'.paid = true)) ∧
    w.effects ⊆ w'.effects

theorem Later.refl (w : World) : Later w w :=
  ⟨fun j h => ⟨j, h, id⟩, List.Subset.refl _⟩

theorem Later.trans {w₁ w₂ w₃ : World} (h₁ : Later w₁ w₂) (h₂ : Later w₂ w₃) : Later w₁ w₃ := by
  refine ⟨fun j hj => ?_, fun _ h => h₂.2 (h₁.2 h)⟩
  obtain ⟨j₂, hj₂, hp₂⟩ := h₁.1 j hj
  obtain ⟨j₃, hj₃, hp₃⟩ := h₂.1 j₂ hj₂
  exact ⟨j₃, hj₃, hp₃ ∘ hp₂⟩

theorem later_write (w : World) (id : String) (m : Mutator) : Later w (w.write key id m) := by
  unfold World.write
  split
  · exact ⟨fun j hj => ⟨m.apply j, by simp [hj], m.paid_apply j⟩, List.Subset.refl _⟩
  · exact Later.refl w

theorem later_insert (w : World) (j : CompareJob) : Later w (w.insert key j) := by
  unfold World.insert
  split
  · rename_i h
    exact ⟨fun j' hj' => by simp [hj'] at h, List.Subset.refl _⟩
  · exact Later.refl w

theorem later_emit (w : World) (e : Effect) : Later w (w.emit e) :=
  ⟨fun j h => ⟨j, h, id⟩, List.subset_cons_self _ _⟩

theorem JobInv.mono {effs effs' : List Effect} {j : CompareJob} (h : JobInv key effs j) (he : effs ⊆ effs') :
    JobInv key effs' j :=
  ⟨h.ready, h.awaiting, h.resultPath, h.amount.imp_right (@he _)⟩

/-- The handlers that may set `Paid`: a notification the handler accepted — `SUCCESS`, for this job,
after its one amount-check read, and, when that read found the record, for the amount it expected from
it, which is an order's fee or 1 fen when none was recorded — or a paygate run on its free path. -/
def PaysFor (key : String) : Actor → List Read → World → Prop
  | .notify tx _, rds, w => toUpper tx.tradeState = "SUCCESS" ∧ trimSpace tx.outTradeNo = key ∧
      ∃ rd, rds = [rd] ∧ ∀ j, rd = .found j → tx.amountTotal = expectedFen j ∧
        (j.amountFen = 0 ∨ Effect.createOrder key j.amountFen ∈ w.effects)
  | .paygateWorker _ env, _, _ => env.feeFen = 0
  | _, _, _ => False

/-- What a write `m` of run `a`, which has read `rds`, promises when it lands on `w`. -/
def Guar (key : String) (a : Actor) (rds : List Read) (m : Mutator) (w : World) : Prop :=
  ∀ j, w.job = some j → JobInv key w.effects j →
    JobInv key w.effects (m.apply j) ∧ (j.paid = false → (m.apply j).paid = true → PaysFor key a rds w)

/-- **What a run's remaining calls promise** once the record has reached `w`. -/
def Good (key : String) (a : Actor) {α : Type} : List Read → Prog α → World → Prop
  | _, .ret _, _ => True
  | rds, .get id k, w => ∀ w', Later w w' → Inv key w' →
      Good key a (rds ++ [.err]) (k .err) w' ∧ Good key a (rds ++ [w'.read key id]) (k (w'.read key id)) w'
  | rds, .update id m k, w =>
      (World.hits key id → ∀ w', Later w w' → Guar key a rds m w') ∧ Good key a rds k w
  | rds, .create j k, w =>
      (World.hits key j.id → j.paid = false ∧ ∀ w', Later w w' → JobInv key w'.effects j) ∧ Good key a rds k w
  | rds, .emit e k, w => ∀ w', Later w w' → Good key a rds k (w'.emit e)

theorem Good.mono {a : Actor} {α : Type} {p : Prog α} :
    ∀ {rds : List Read} {w w' : World}, Good key a rds p w → Later w w' → Good key a rds p w' := by
  induction p with
  | ret x => exact fun _ _ => trivial
  | get id k => exact fun h hl w'' hl' hi => h w'' (hl.trans hl') hi
  | update id m k ih => exact fun h hl => ⟨fun hh w'' hl' => h.1 hh w'' (hl.trans hl'), ih h.2 hl⟩
  | create j k ih => exact fun h hl => ⟨fun hh => ⟨(h.1 hh).1, fun w'' hl' => (h.1 hh).2 w'' (hl.trans hl')⟩, ih h.2 hl⟩
  | emit e k => exact fun h hl w'' hl' => h w'' (hl.trans hl')

/-! ## Closures that need nothing from the run -/

/-- A closure that keeps the record invariant by itself and leaves `Paid` as it is. -/
def Tame (key : String) (m : Mutator) : Prop :=
  ∀ effs j, JobInv key effs j → JobInv key effs (m.apply j) ∧ (m.apply j).paid = j.paid

theorem Tame.guar {m : Mutator} (h : Tame key m) (a : Actor) (rds : List Read) (w : World) :
    Guar key a rds m w := fun j _ hj =>
  ⟨(h _ j hj).1, fun h₁ h₂ => by rw [(h _ j hj).2, h₁] at h₂; cases h₂⟩

theorem tame_markProcessing : Tame key .markProcessing := by
  intro effs j hj
  simp only [Mutator.apply]
  split
  · exact ⟨hj, rfl⟩
  · exact ⟨⟨by simp, by simp, hj.resultPath, hj.amount⟩, rfl⟩

theorem tame_persistResult {k : String} (hk : k ≠ "") : Tame key (.persistResult k) := by
  intro effs j hj
  simp only [Mutator.apply]
  split
  · exact ⟨hj, rfl⟩
  · exact ⟨⟨fun h => ⟨hk, (hj.ready h).2⟩, fun h => ⟨hk, (hj.awaiting h).2⟩, rfl, hj.amount⟩, rfl⟩

theorem tame_fail (msg : String) : Tame key (.fail msg) :=
  fun _ _ hj => ⟨⟨by simp [Mutator.apply], by simp [Mutator.apply], hj.resultPath, hj.amount⟩, rfl⟩

theorem tame_cancel (now : Nat) : Tame key (.cancel now) := by
  intro effs j hj
  simp only [Mutator.apply]
  split
  · exact ⟨hj, rfl⟩
  · exact ⟨⟨by simp, by simp, hj.resultPath, hj.amount⟩, rfl⟩

/-- Every `Update` a program may still make, on any answers to its reads, uses a tame closure; it
creates nothing. -/
def Prog.TameOnly (key : String) {α : Type} : Prog α → Prop
  | .ret _ => True
  | .get _ k => ∀ rd, (k rd).TameOnly key
  | .update _ m k => Tame key m ∧ k.TameOnly key
  | .create _ _ => False
  | .emit _ k => k.TameOnly key

theorem Prog.TameOnly.good {a : Actor} {α : Type} {p : Prog α} :
    ∀ {rds : List Read} {w : World}, p.TameOnly key → Good key a rds p w := by
  induction p with
  | ret x => exact fun _ => trivial
  | get id k ih => exact fun h _ _ _ => ⟨ih _ (h _), ih _ (h _)⟩
  | update id m k ih => exact fun h => ⟨fun _ _ _ => h.1.guar a _ _, ih h.2⟩
  | create j k => exact fun h => h.elim
  | emit e k ih => exact fun h _ _ => ih h

theorem tameOnly_failRun (jobID msg : String) : (failRun jobID msg).TameOnly key := by
  unfold failRun; split
  · trivial
  · exact ⟨tame_fail msg, trivial⟩

theorem tameOnly_enqueuePaygate (jobID : String) (ok : Bool) : (enqueuePaygate jobID ok).TameOnly key := by
  unfold enqueuePaygate; split <;> trivial

theorem objectKeyForJob_ne (pfx jobID : String) : objectKeyForJob pfx jobID ≠ "" := by
  intro h
  have := congrArg String.length h
  simp only [objectKeyForJob, String.length_append, String.length_empty, Nat.add_eq_zero] at this
  exact absurd this.2 (by decide)

theorem tameOnly_compareReread (jobID : String) (env : CompareEnv) (rd : Read) :
    (compareReread jobID env rd).TameOnly key := by
  cases rd with
  | found job =>
    simp only [compareReread]
    split
    · trivial
    · exact tameOnly_enqueuePaygate _ _
  | _ => trivial

/-- **The compare worker writes only tame closures.** -/
theorem tameOnly_compareProcess (jobID : String) (env : CompareEnv) :
    (compareProcess jobID env).TameOnly key := by
  unfold compareProcess
  split
  · trivial
  · trivial
  · rintro (_ | _ | job)
    · trivial
    · trivial
    · dsimp only
      unfold compareFound
      split_ifs
      · trivial
      · trivial
      · exact tameOnly_enqueuePaygate _ _
      · exact tameOnly_failRun _ _
      · refine ⟨tame_markProcessing, ?_⟩
        split
        · exact tameOnly_failRun _ _
        · exact ⟨tame_persistResult (objectKeyForJob_ne _ _), tameOnly_compareReread jobID env⟩

/-- **The cancel route writes only tame closures.** -/
theorem tameOnly_handleCancelJob (jobID : String) (env : CancelEnv) :
    (handleCancelJob jobID env).TameOnly key := by
  rintro (_ | _ | job)
  · trivial
  · trivial
  · dsimp only
    unfold cancelFound
    split_ifs
    · trivial
    · trivial
    · split
      · trivial
      · exact ⟨tame_cancel _, trivial⟩
    · exact ⟨tame_cancel _, trivial⟩

/-! ## The handlers that read before they write -/

theorem World.hits_trim {id : String} (h : World.hits key id = true) : trimSpace id = key := by
  simp only [World.hits, Bool.and_eq_true, beq_iff_eq] at h
  exact h.1

theorem World.read_found {w : World} {id : String} {j : CompareJob} (h : w.read key id = .found j) :
    w.job = some j := by
  unfold World.read at h
  split at h
  · split at h <;> simp_all
  · cases h

theorem JobInv.resultOSSKey_ne {effs : List Effect} {j : CompareJob} (hj : JobInv key effs j)
    (h : j.hasResult = true) : j.resultOSSKey ≠ "" := by
  simp only [CompareJob.hasResult, hj.resultPath, trimSpace_empty, bne_self_eq_false, Bool.or_false,
    bne_iff_ne, ne_eq] at h
  exact fun h' => h (by rw [h']; rfl)

theorem jobInv_notifyPaid {effs : List Effect} {j : CompareJob} (now : Nat) (hj : JobInv key effs j) :
    JobInv key effs ((Mutator.notifyPaid now).apply j) := by
  simp only [Mutator.apply]
  split_ifs with h₁ h₂ h₃
  · exact hj
  · exact ⟨fun _ => ⟨hj.resultOSSKey_ne h₂.1, rfl⟩, by simp, hj.resultPath, Or.inl rfl⟩
  · exact ⟨by simp, by simp, hj.resultPath, hj.amount⟩
  · refine ⟨fun h => ?_, fun h => absurd h h₃, hj.resultPath, hj.amount⟩
    exact absurd (hj.ready h).2 h₁

theorem good_paygateFound (jobID id : String) (hid : trimSpace id = id) (env : PaygateEnv)
    (rds : List Read) {w : World} {job : CompareJob} (hw : w.job = some job) :
    Good key (.paygateWorker jobID env) rds (paygateFound id env job) w := by
  unfold paygateFound
  by_cases h₁ : job.status = .cancelled ∨ job.status = .ready ∨ job.status = .failed
  · rw [if_pos h₁]; trivial
  rw [if_neg h₁]
  by_cases h₂ : trimSpace job.resultOSSKey = ""
  · rw [if_pos h₂]; trivial
  rw [if_neg h₂]
  by_cases h₃ : job.paid
  · rw [if_pos h₃]
    refine ⟨fun _ w' hl j' hw' hj' => ?_, trivial⟩
    obtain ⟨j'', hj'', hp⟩ := hl.1 job hw
    rw [hw'] at hj''; cases hj''
    simp only [Mutator.apply]
    split
    · exact ⟨hj', fun h h' => by simp_all⟩
    · exact ⟨⟨fun _ => ⟨h₂, hp h₃⟩, by simp [CompareJob.released], rfl, by simp [CompareJob.released]⟩,
        fun h => by simp_all [CompareJob.released]⟩
  rw [if_neg h₃]
  by_cases h₄ : env.feeFen = 0
  · rw [if_pos h₄]
    refine ⟨fun _ w' _ j' _ hj' => ?_, trivial⟩
    simp only [Mutator.apply]
    split
    · exact ⟨hj', fun h h' => by simp_all⟩
    · refine ⟨⟨fun _ => ⟨h₂, ?_⟩, by simp [CompareJob.released], rfl, by simp [CompareJob.released]⟩,
        fun _ _ => h₄⟩
      split <;> simp_all [CompareJob.released]
  rw [if_neg h₄]
  by_cases h₅ : job.status = .awaitingPayment ∧ trimSpace job.codeURL ≠ ""
  · rw [if_pos h₅]; trivial
  rw [if_neg h₅]
  split
  · exact (tameOnly_failRun _ _).good
  · rename_i url _
    refine fun w' _ => ⟨fun hh w'' hl' j' _ hj' => ?_, trivial⟩
    have hkey : id = key := hid ▸ World.hits_trim hh
    simp only [Mutator.apply]
    split
    · exact ⟨hj', fun h h' => by simp_all⟩
    · rename_i hnot
      refine ⟨⟨by simp, fun _ => ⟨h₂, by simpa using (not_or.1 hnot).2, fun h => url.2 (by simp at h; simp [h])⟩, rfl,
        Or.inr (hl'.2 (by simp [World.emit, hkey]))⟩, fun h h' => by simp_all⟩

theorem good_paygateProcess (jobID : String) (env : PaygateEnv) (w : World) :
    Good key (.paygateWorker jobID env) [] (paygateProcess jobID env) w := by
  unfold paygateProcess
  split_ifs
  · trivial
  · split
    · trivial
    · trivial
    · intro w' _ _
      refine ⟨trivial, ?_⟩
      generalize hrd : w'.read key (trimSpace jobID) = rd
      cases rd with
      | found job => exact good_paygateFound _ _ (trimSpace_trimSpace _) _ _ (World.read_found hrd)
      | _ => trivial

/-- The notify handler's write, after its one read `rd`, promises `PaysFor`. -/
theorem good_notifyUpdate (tx : Transaction) (now : Nat) (hs : toUpper tx.tradeState = "SUCCESS")
    (rd : Read) (w : World) (hrd : ∀ j, rd = .found j → tx.amountTotal = expectedFen j ∧
      (j.amountFen = 0 ∨ Effect.createOrder key j.amountFen ∈ w.effects)) :
    Good key (.notify tx now) [rd] (notifyUpdate (trimSpace tx.outTradeNo) now) w := by
  refine ⟨fun hh w' hl j' _ hj' => ⟨jobInv_notifyPaid now hj', fun _ _ => ⟨hs, ?_, rd, rfl, fun j hj => ?_⟩⟩,
    trivial⟩
  · simpa using World.hits_trim hh
  · exact (hrd j hj).imp_right (Or.imp_right (@hl.2 _))

theorem good_notifyHandle (tx : Transaction) (now : Nat) (w : World) :
    Good key (.notify tx now) [] (notifyHandle tx now) w := by
  unfold notifyHandle
  split_ifs with h₁ h₂
  · trivial
  · trivial
  · intro w' _ hi
    refine ⟨good_notifyUpdate tx now (not_not.1 h₂) .err _ (fun _ h => nomatch h), ?_⟩
    generalize hrd : w'.read key (trimSpace tx.outTradeNo) = rd
    cases rd with
    | found job =>
      simp only [notifyChecked]
      split
      · trivial
      · rename_i hamt
        refine good_notifyUpdate tx now (not_not.1 h₂) _ _ fun j hj => ?_
        cases hj
        exact ⟨not_not.1 hamt, (hi _ (World.read_found hrd)).amount⟩
    | err | missing => exact good_notifyUpdate tx now (not_not.1 h₂) _ _ fun _ h => nomatch h

theorem good_handleCreateJob (jobID key1 key2 name1 name2 : String) (env : IntakeEnv) (w : World) :
    Good key (.intake jobID key1 key2 name1 name2 env) [] (handleCreateJob jobID key1 key2 name1 name2 env) w := by
  unfold handleCreateJob
  split
  · trivial
  · refine ⟨fun _ => ⟨rfl, fun _ _ => ⟨by simp [newJob], by simp [newJob], rfl, Or.inl rfl⟩⟩,
      Prog.TameOnly.good ?_⟩
    split
    · trivial
    · exact ⟨tame_fail _, trivial⟩

/-- **Every handler keeps its promises**, started from any state. -/
theorem Actor.good_program (a : Actor) (w : World) : Good key a [] a.program w := by
  cases a with
  | intake jobID key1 key2 name1 name2 env => exact good_handleCreateJob _ _ _ _ _ _ w
  | compareWorker jobID env => exact (tameOnly_compareProcess jobID env).good
  | paygateWorker jobID env => exact good_paygateProcess jobID env w
  | notify tx now => exact good_notifyHandle tx now w
  | cancel jobID env => exact (tameOnly_handleCancelJob jobID env).good

/-! ## Every reachable state -/

/-- A run in flight was started with an allowed fee and keeps its promises from the record `w` on. -/
def RunOK (key : String) (fees : Nat → Prop) (w : World) (r : Run) : Prop :=
  r.actor.FeeIn fees ∧ Good key r.actor r.reads r.prog w

/-- **The pipeline invariant**: the record invariant, and every run in flight is `RunOK`. -/
def SysInv (key : String) (fees : Nat → Prop) (s : Sys) : Prop :=
  Inv key s.world ∧ ∀ r ∈ s.runs, RunOK key fees s.world r

theorem forall_mem_middle {P : Run → Prop} {pre post : List Run} {x : Run} :
    (∀ r ∈ pre ++ x :: post, P r) ↔ P x ∧ ∀ r ∈ pre ++ post, P r := by
  simp only [List.mem_append, List.mem_cons]
  constructor
  · exact fun h => ⟨h x (.inr (.inl rfl)), fun r hr => h r (hr.imp_right .inr)⟩
  · rintro ⟨hx, h⟩ r (hr | rfl | hr)
    · exact h r (.inl hr)
    · exact hx
    · exact h r (.inr hr)

theorem inv_write {w : World} {id : String} {m : Mutator} {a : Actor} {rds : List Read} (hi : Inv key w)
    (hg : World.hits key id = true → Guar key a rds m w) : Inv key (w.write key id m) := by
  unfold World.write
  split
  · rename_i hh
    intro j' hj'
    obtain ⟨j, hj, rfl⟩ := Option.map_eq_some'.1 hj'
    exact (hg hh j hj (hi j hj)).1
  · exact hi

theorem inv_insert {w : World} {j : CompareJob} (hi : Inv key w)
    (hj : World.hits key j.id = true → JobInv key w.effects j) : Inv key (w.insert key j) := by
  unfold World.insert
  split
  · rename_i h
    rintro j' ⟨⟩
    exact hj (Bool.and_eq_true _ _ ▸ h).1
  · exact hi

theorem inv_emit {w : World} (e : Effect) (hi : Inv key w) : Inv key (w.emit e) :=
  fun j hj => (hi j hj).mono (List.subset_cons_self _ _)

/-- **A step moves the record only forward.** -/
theorem Step.later {fees : Nat → Prop} {s t : Sys} (h : Step key fees s t) : Later s.world t.world := by
  cases h with
  | update fail => split; exact Later.refl _; exact later_write _ _ _
  | create fail => split; exact Later.refl _; exact later_insert _ _
  | emit => exact later_emit _ _
  | _ => exact Later.refl _

/-- **One step keeps the pipeline invariant.** -/
theorem Step.sysInv {fees : Nat → Prop} {s t : Sys} (h : Step key fees s t) (hs : SysInv key fees s) :
    SysInv key fees t := by
  obtain ⟨hi, hr⟩ := hs
  have hl := h.later
  cases h with
  | spawn a ha => exact ⟨hi, List.forall_mem_cons.2 ⟨⟨ha, a.good_program _⟩, hr⟩⟩
  | @get w pre post a rds id k fail =>
    obtain ⟨⟨hf, hg⟩, hr⟩ := forall_mem_middle.1 hr
    have hk := hg w (Later.refl w) hi
    refine ⟨hi, forall_mem_middle.2 ⟨⟨hf, ?_⟩, hr⟩⟩
    cases fail
    · exact hk.2
    · exact hk.1
  | @update w pre post a rds id m k fail =>
    obtain ⟨⟨hf, hg, hk⟩, hr⟩ := forall_mem_middle.1 hr
    refine ⟨?_, forall_mem_middle.2 ⟨⟨hf, hk.mono hl⟩, fun r hr' => ⟨(hr r hr').1, (hr r hr').2.mono hl⟩⟩⟩
    cases fail
    · exact inv_write hi fun hh => hg hh w (Later.refl w)
    · exact hi
  | @create w pre post a rds j k fail =>
    obtain ⟨⟨hf, hg, hk⟩, hr⟩ := forall_mem_middle.1 hr
    refine ⟨?_, forall_mem_middle.2 ⟨⟨hf, hk.mono hl⟩, fun r hr' => ⟨(hr r hr').1, (hr r hr').2.mono hl⟩⟩⟩
    cases fail
    · exact inv_insert hi fun hh => (hg hh).2 w (Later.refl w)
    · exact hi
  | @emit w pre post a rds e k =>
    obtain ⟨⟨hf, hg⟩, hr⟩ := forall_mem_middle.1 hr
    exact ⟨inv_emit e hi, forall_mem_middle.2 ⟨⟨hf, hg w (Later.refl w)⟩,
      fun r hr' => ⟨(hr r hr').1, (hr r hr').2.mono hl⟩⟩⟩
  | finish => exact ⟨hi, (forall_mem_middle.1 hr).2⟩

theorem Reachable.sysInv {fees : Nat → Prop} {s : Sys} (h : Reachable key fees s) : SysInv key fees s := by
  induction h with
  | refl => exact ⟨fun _ h => (nomatch h), fun _ h => (nomatch h)⟩
  | tail _ hst ih => exact hst.sysInv ih

theorem ReflTransGen.later {fees : Nat → Prop} {s t : Sys} (h : Relation.ReflTransGen (Step key fees) s t) :
    Later s.world t.world := by
  induction h with
  | refl => exact Later.refl _
  | tail _ hst ih => exact ih.trans hst.later

/-- **The job record's invariant** (spec §3, 1, 2 and 4): in every state every interleaving of intake
requests, compare and paygate runs, notify deliveries and cancel requests reaches, with any lease
outcomes, store faults and fees, a `ready` job has a result and is paid, an `awaiting_payment` job has
a result, is unpaid and has a code URL; and once `Paid` is set it stays set. -/
theorem reachable_jobInvariant {fees : Nat → Prop} {s : Sys} (hs : Reachable key fees s) :
    (∀ j, s.world.job = some j →
      (j.status = .ready → j.resultOSSKey ≠ "" ∧ j.paid = true) ∧
      (j.status = .awaitingPayment → j.resultOSSKey ≠ "" ∧ j.paid = false ∧ j.codeURL ≠ "")) ∧
    ∀ t, Relation.ReflTransGen (Step key fees) s t → ∀ j, s.world.job = some j → j.paid = true →
      ∃ j', t.world.job = some j' ∧ j'.paid = true := by
  refine ⟨fun j hj => ?_, fun t ht j hj hp => ?_⟩
  · have := hs.sysInv.1 j hj
    exact ⟨this.ready, this.awaiting⟩
  · obtain ⟨j', hj', hp'⟩ := (ReflTransGen.later ht).1 j hj
    exact ⟨j', hj', hp' hp⟩

/-- The free path (spec §8, scenario 1): the intake, one compare run, one paygate run with a zero fee. -/
def freePath : List Choice :=
  [.spawn (.intake "job_1" "in/job_1/file1_a.xlsx" "in/job_1/file2_b.xlsx" "a.xlsx" "b.xlsx" ⟨none, .ok ()⟩),
    .next 0 false, .next 0 false, .next 0 false,
    .spawn (.compareWorker "job_1" ⟨.acquired, "out", true, none, true⟩),
    .next 0 false, .next 0 false, .next 0 false, .next 0 false, .next 0 false, .next 0 false,
    .spawn (.paygateWorker "job_1" ⟨.acquired, 0, 2, .error "not called"⟩),
    .next 0 false, .next 0 false, .next 0 false]

theorem freePath_jobInvariant : ∃ s, Reachable "job_1" (fun _ => True) s ∧
    s.world.job.map (·.status) = some .ready ∧
    (∀ j, s.world.job = some j →
      (j.status = .ready → j.resultOSSKey ≠ "" ∧ j.paid = true) ∧
      (j.status = .awaitingPayment → j.resultOSSKey ≠ "" ∧ j.paid = false ∧ j.codeURL ≠ "")) ∧
    ∀ t, Relation.ReflTransGen (Step "job_1" (fun _ => True)) s t → ∀ j, s.world.job = some j →
      j.paid = true → ∃ j', t.world.job = some j' ∧ j'.paid = true := by
  have hrun : (Sys.run? "job_1" Sys.init freePath).map (fun s => s.world.job.map (·.status)) =
      some (some .ready) := by decide
  obtain ⟨s, hs, hst⟩ := Option.map_eq_some'.1 hrun
  have hr : Reachable "job_1" (fun _ => True) s := Sys.run?_steps _ _ _ _ _ hs fun a _ => by cases a <;> trivial
  exact ⟨s, hr, hst, reachable_jobInvariant hr⟩

end Guangyang
