import Guangyang.Alone
/-!
# Routes — the job routes and the job query

`Service.handleJobRoutes` cuts `/compare/jobs/` off the path, trims its slashes and splits it at `/`: one
piece is the job, `<id>/export` its download and `<id>/cancel` its cancellation, each behind its method.
The router hands a handler exactly the requests whose trimmed path is a nonempty job id without `/`
followed by the handler's suffix (`handleJobRoutes_handle`), and answers `jobId required` exactly when
nothing but slashes follows the prefix (`handleJobRoutes_jobIDRequired`): its second `jobId == ""` check
never fires.

`Service.handleGetJob` shows a paid `awaiting_payment` job with a result as `ready`, a heal on read that
the pipeline never needs: on every state it reaches the status shown is the stored one, and a reply that
offers a payment code is for an unpaid job and carries a code URL (`getJob_reachable`).

Go's `strings` functions work on bytes; every separator here is ASCII, which in UTF-8 stands only for
itself, so they are computed on characters.
-/
namespace Guangyang

/-! ## Path handling -/

/-- `strings.TrimPrefix(s, pre)`. -/
def cutHead (pre s : List Char) : List Char :=
  if pre.isPrefixOf s then s.drop pre.length else s

/-- `strings.Trim(s, "/")`. -/
def trimSlashes (s : List Char) : List Char :=
  (s.dropWhile (· == '/')).rdropWhile (· == '/')

theorem cutHead_append (pre s : List Char) : cutHead pre (pre ++ s) = s := by
  have hp := List.isPrefixOf_iff_prefix.2 ( List.prefix_append pre s)
  rw [cutHead, if_pos hp, List.drop_left]

/-- What trimming leaves never starts with `/`. -/
theorem head?_trimSlashes (s : List Char) : (trimSlashes s).head? ≠ some '/' := by
  have hd := List.head?_dropWhile_not (· == '/') s
  have hp := List.rdropWhile_prefix (p := (· == '/')) (l := s.dropWhile (· == '/'))
  obtain ⟨t, ht⟩ := hp
  unfold trimSlashes
  cases hr : (s.dropWhile (· == '/')).rdropWhile (· == '/') with
  | nil => simp
  | cons c r =>
    rw [hr] at ht
    rw [← ht] at hd
    simpa using hd

/-- No piece `strings.Split` returns holds the separator. -/
theorem not_mem_of_mem_splitOn {α : Type} [DecidableEq α] (a : α) (l : List α) :
    ∀ x ∈ l.splitOn a, a ∉ x := by
  induction l with
  | nil => simp
  | cons c l ih =>
    simp only [List.splitOn, List.splitOnP_cons] at ih ⊢
    obtain ⟨y, ys, hy⟩ := List.exists_cons_of_ne_nil (List.splitOnP_ne_nil (· == a) l)
    rw [hy] at ih ⊢
    split_ifs with hc
    · simpa using ih
    · simp only [List.modifyHead, List.forall_mem_cons] at ih ⊢
      refine ⟨fun h => ?_, ih.2⟩
      rcases List.mem_cons.1 h with h | h
      · exact hc (by simp [h])
      · exact ih.1 h

/-- `strings.Split` at `a` inverts joining with `a`: it returns the nonempty list of `a`-free pieces that
join back to its input. -/
theorem splitOn_eq_iff {α : Type} [DecidableEq α] {a : α} {l : List α} {ps : List (List α)} :
    l.splitOn a = ps ↔ ps ≠ [] ∧ (∀ x ∈ ps, a ∉ x) ∧ [a].intercalate ps = l := by
  constructor
  · rintro rfl
    exact ⟨List.splitOnP_ne_nil _ _, not_mem_of_mem_splitOn a l, List.intercalate_splitOn l a⟩
  · rintro ⟨hne, hx, rfl⟩
    exact List.splitOn_intercalate ps a hx hne

/-- The first piece of a split is empty only for an empty input or one that starts with the separator. -/
theorem head?_of_splitOn_headD {α : Type} [DecidableEq α] {a : α} {l : List α}
    (h : (l.splitOn a).headD [] = []) : l.head? = none ∨ l.head? = some a := by
  cases l with
  | nil => exact .inl rfl
  | cons c l =>
    simp only [List.splitOn, List.splitOnP_cons] at h
    obtain ⟨y, ys, hy⟩ := List.exists_cons_of_ne_nil (List.splitOnP_ne_nil (· == a) l)
    split_ifs at h with hc
    · exact .inr (by simpa using hc)
    · rw [hy] at h
      cases h

/-! ## The router -/

/-- The handlers behind the job routes. -/
inductive Target
  | getJob
  | downloadExport
  | cancelJob
  deriving DecidableEq, Repr

/-- The method a handler is served under. -/
def Target.method : Target → String
  | .getJob => "GET"
  | .downloadExport => "GET"
  | .cancelJob => "POST"

/-- The path pieces after the job id. -/
def Target.segments : Target → List (List Char)
  | .getJob => []
  | .downloadExport => ["export".data]
  | .cancelJob => ["cancel".data]

/-- The path after the job id. -/
def Target.suffix : Target → String
  | .getJob => ""
  | .downloadExport => "/export"
  | .cancelJob => "/cancel"

theorem intercalate_segments (t : Target) (x : List Char) :
    ['/'].intercalate (x :: t.segments) = x ++ t.suffix.data := by
  cases t <;> simp [Target.segments, Target.suffix, List.intercalate]

/-- What `handleJobRoutes` does with a request: answers it itself, or hands the job id to a handler. -/
inductive Route
  | reply (r : Reply)
  | handle (t : Target) (jobID : String)
  deriving DecidableEq, Repr

/-- The checks each sub-route makes before its handler: `OPTIONS` is answered `204`, a method other than
`allowed` `405`. -/
def methodGate (method allowed : String) (next : Route) : Route :=
  if method = "OPTIONS" then .reply (.bare 204)
  else if method ≠ allowed then .reply (.error 405 "method not allowed")
  else next

/-- `handleJobRoutes` after `strings.Split`: the first piece is the job id, the rest picks the handler. -/
def routeParts (method : String) (parts : List (List Char)) : Route :=
  let jobID := parts.headD []
  if jobID = [] then .reply (.error 400 "jobId required")
  else if parts.length = 1 then methodGate method "GET" (.handle .getJob ⟨jobID⟩)
  else if parts.length = 2 ∧ parts.getD 1 [] = "export".data then
    methodGate method "GET" (.handle .downloadExport ⟨jobID⟩)
  else if parts.length = 2 ∧ parts.getD 1 [] = "cancel".data then
    methodGate method "POST" (.handle .cancelJob ⟨jobID⟩)
  else .reply (.error 404 "404 page not found")

/-- `Service.handleJobRoutes` on the request's method and `URL.Path`. -/
def handleJobRoutes (method path : String) : Route :=
  let p := trimSlashes (cutHead "/compare/jobs/".data path.data)
  if p = [] then .reply (.error 400 "jobId required") else routeParts method (p.splitOn '/')

theorem methodGate_eq_handle {method allowed : String} {next : Route} {t : Target} {j : String}
    (h : methodGate method allowed next = .handle t j) : method = allowed ∧ next = .handle t j := by
  unfold methodGate at h
  split_ifs at h with h₁ h₂
  exact ⟨not_not.1 h₂, h⟩

theorem methodGate_self {allowed : String} (h : allowed ≠ "OPTIONS") (next : Route) :
    methodGate allowed allowed next = next := by
  simp [methodGate, h]

theorem routeParts_eq_handle {method : String} {parts : List (List Char)} {t : Target} {j : String} :
    routeParts method parts = .handle t j ↔
      method = t.method ∧ j.data ≠ [] ∧ parts = j.data :: t.segments := by
  constructor
  · intro h
    dsimp only [routeParts] at h
    split_ifs at h with h₀ h₁ h₂ h₃
    · obtain ⟨rfl, h⟩ := methodGate_eq_handle h
      cases h
      obtain ⟨x, rfl⟩ := List.length_eq_one.1 h₁
      exact ⟨rfl, h₀, rfl⟩
    · obtain ⟨rfl, h⟩ := methodGate_eq_handle h
      cases h
      obtain ⟨x, y, rfl⟩ := List.length_eq_two.1 h₂.1
      exact ⟨rfl, h₀, by simpa [Target.segments] using h₂.2⟩
    · obtain ⟨rfl, h⟩ := methodGate_eq_handle h
      cases h
      obtain ⟨x, y, rfl⟩ := List.length_eq_two.1 h₃.1
      exact ⟨rfl, h₀, by simpa [Target.segments] using h₃.2⟩
  · rintro ⟨rfl, hj, rfl⟩
    cases t <;> simp [routeParts, hj, methodGate_self, Target.method, Target.segments]

/-- **The router hands a handler exactly the canonical requests**: those with the handler's method whose
path, after `/compare/jobs/` and with its slashes trimmed, is a nonempty job id without `/` followed by
the handler's suffix. -/
theorem handleJobRoutes_handle {method path : String} {t : Target} {j : String} :
    handleJobRoutes method path = .handle t j ↔
      method = t.method ∧ j.data ≠ [] ∧ '/' ∉ j.data ∧
        trimSlashes (cutHead "/compare/jobs/".data path.data) = j.data ++ t.suffix.data := by
  dsimp only [handleJobRoutes]
  generalize trimSlashes (cutHead "/compare/jobs/".data path.data) = p
  constructor
  · intro h
    split_ifs at h with hp
    obtain ⟨hm, hj, hs⟩ := routeParts_eq_handle.1 h
    obtain ⟨-, hx, hi⟩ := splitOn_eq_iff.1 hs
    exact ⟨hm, hj, hx _ (List.mem_cons_self _ _), hi.symm.trans (intercalate_segments t j.data)⟩
  · rintro ⟨hm, hj, hs, rfl⟩
    have hseg : ∀ x ∈ t.segments, '/' ∉ x := by cases t <;> decide
    rw [if_neg (by simp [hj]), routeParts_eq_handle]
    exact ⟨hm, hj, splitOn_eq_iff.2 ⟨List.cons_ne_nil _ _, List.forall_mem_cons.2 ⟨hs, hseg⟩,
      intercalate_segments t j.data⟩⟩

example : handleJobRoutes "GET" "/compare/jobs//job_1//" = .handle .getJob "job_1" := by decide

/-- A path with no `/` at either end is left as it is by trimming. -/
theorem trimSlashes_eq_self {l : List Char} (hh : l.head? ≠ some '/') (hl : l.getLast? ≠ some '/') :
    trimSlashes l = l := by
  have hd : l.dropWhile (· == '/') = l := by
    cases l with
    | nil => rfl
    | cons c r => exact List.dropWhile_cons_of_neg (by simpa using hh)
  rw [trimSlashes, hd, List.rdropWhile_eq_self_iff]
  intro hne
  simpa [List.getLast?_eq_getLast l hne] using hl

/-- A path whose trimmed rest is a job id without `/` and a handler's suffix reaches that handler. -/
theorem handleJobRoutes_of_trimmed {path : String} (t : Target) {j : String} (hj : j.data ≠ []) (hs : '/' ∉ j.data)
    (hp : trimSlashes (cutHead "/compare/jobs/".data path.data) = j.data ++ t.suffix.data) :
    handleJobRoutes t.method path = .handle t j := by
  have hseg : ∀ x ∈ t.segments, '/' ∉ x := by cases t <;> decide
  dsimp only [handleJobRoutes]
  rw [hp, if_neg (by simp [hj]), routeParts_eq_handle]
  exact ⟨rfl, hj, splitOn_eq_iff.2 ⟨List.cons_ne_nil _ _, List.forall_mem_cons.2 ⟨hs, hseg⟩,
    intercalate_segments t j.data⟩⟩

/-- Every job id without `/` is reached at its canonical path. -/
theorem handleJobRoutes_canonical (t : Target) {j : String} (hj : j.data ≠ []) (hs : '/' ∉ j.data) :
    handleJobRoutes t.method ("/compare/jobs/" ++ j ++ t.suffix) = .handle t j := by
  refine handleJobRoutes_of_trimmed t hj hs ?_
  obtain ⟨c, r, hcr⟩ := List.exists_cons_of_ne_nil hj
  have hc : c ≠ '/' := fun h => hs (hcr ▸ h ▸ List.mem_cons_self _ _)
  rw [String.data_append, String.data_append, List.append_assoc, cutHead_append]
  refine trimSlashes_eq_self (by simp [hcr, hc]) ?_
  cases t
  · have hm := List.getLast_mem hj
    show (j.data ++ []).getLast? ≠ some '/'
    rw [List.append_nil, List.getLast?_eq_getLast j.data hj]
    exact fun h => hs (Option.some.inj h ▸ hm)
  all_goals simp [Target.suffix]

example : handleJobRoutes "GET" "/compare/jobs/job_1/export" = .handle .downloadExport "job_1" := by decide

theorem methodGate_reply {method allowed : String} {next : Route} {r : Reply}
    (h : methodGate method allowed next = .reply r) :
    r = .bare 204 ∨ r = .error 405 "method not allowed" ∨ next = .reply r := by
  unfold methodGate at h
  split_ifs at h <;> cases h <;> simp

theorem routeParts_jobIDRequired {method : String} {parts : List (List Char)}
    (h : routeParts method parts = .reply (.error 400 "jobId required")) : parts.headD [] = [] := by
  dsimp only [routeParts] at h
  split_ifs at h with h₀
  · exact h₀
  all_goals first | cases h | (rcases methodGate_reply h with h | h | h <;> cases h)

/-- **`jobId required` is answered exactly when only slashes follow the prefix**: trimming leaves no `/`
in front of the first piece, so the router's second `jobId == ""` check never fires. -/
theorem handleJobRoutes_jobIDRequired (method path : String) :
    handleJobRoutes method path = .reply (.error 400 "jobId required") ↔
      trimSlashes (cutHead "/compare/jobs/".data path.data) = [] := by
  dsimp only [handleJobRoutes]
  have hhead := head?_trimSlashes (cutHead "/compare/jobs/".data path.data)
  generalize trimSlashes (cutHead "/compare/jobs/".data path.data) = p at hhead ⊢
  refine ⟨fun h => ?_, fun h => if_pos h⟩
  by_contra hp
  rw [if_neg hp] at h
  rcases head?_of_splitOn_headD (routeParts_jobIDRequired h) with h' | h'
  · exact hp (List.head?_eq_none_iff.1 h')
  · exact hhead h'

/-! ## The job query -/

/-- `string(status)`. -/
def CompareJobStatus.text : CompareJobStatus → String
  | .processing => "processing"
  | .awaitingPayment => "awaiting_payment"
  | .ready => "ready"
  | .failed => "failed"
  | .cancelled => "cancelled"

/-- A field of a JSON reply, as a client reads it. -/
def Reply.field (r : Reply) (name : String) : Option String :=
  match r with
  | .json _ fields => fields.lookup name
  | _ => none

/-- How `writeJSON` writes the values `handleGetJob` does not hold as text: the record's `CreatedAt`, which
the model does not keep, `AmountYuan` from its fen count, and a `*time.Time`. -/
structure JSONText where
  createdAt : String
  yuan : Nat → String
  time : Nat → String

/-- The status `handleGetJob` shows: a paid `awaiting_payment` job with a result is shown as `ready`. -/
def shownStatus (job : CompareJob) : CompareJobStatus :=
  if job.status = .awaitingPayment ∧ job.paid ∧ job.hasResult then .ready else job.status

/-- `Service.handleGetJob` on what its `Get` returned. -/
def handleGetJob (txt : JSONText) : Read → Reply
  | .err => .error 500 "server error"
  | .missing => .error 404 "404 page not found"
  | .found job =>
    let status := shownStatus job
    .json 200 ([("jobId", job.id), ("status", status.text), ("createdAt", txt.createdAt),
        ("paid", toString job.paid)] ++
      (if status = .awaitingPayment then [("amount", txt.yuan job.amountFen), ("code_url", job.codeURL)]
        else []) ++
      (if job.status = .failed ∧ job.error ≠ "" then [("error", job.error)] else []) ++
      (job.cancelledAt.map fun t => ("cancelledAt", txt.time t)).toList ++
      (job.paidAt.map fun t => ("paidAt", txt.time t)).toList)

theorem handleGetJob_status (txt : JSONText) (job : CompareJob) :
    (handleGetJob txt (.found job)).field "status" = some (shownStatus job).text := by
  simp [handleGetJob, Reply.field, List.lookup_cons]

/-- An optional field is not found under another name. -/
theorem lookup_optional_ne {k name : String} (h : k ≠ name) (f : Nat → String) (o : Option Nat) :
    ((o.map fun t => (name, f t)).toList).lookup k = none := by
  cases o <;> simp [List.lookup_cons, beq_false_of_ne h]

theorem handleGetJob_codeURL (txt : JSONText) (job : CompareJob) :
    (handleGetJob txt (.found job)).field "code_url" =
      if shownStatus job = .awaitingPayment then some job.codeURL else none := by
  simp only [handleGetJob, Reply.field, List.lookup_append, lookup_optional_ne (by decide : "code_url" ≠ "paidAt"),
    lookup_optional_ne (by decide : "code_url" ≠ "cancelledAt")]
  split_ifs <;> simp [List.lookup_cons]

/-- The heal on read does not fire on a job that keeps the record invariant. -/
theorem shownStatus_of_jobInv {key : String} {effs : List Effect} {j : CompareJob} (hj : JobInv key effs j) :
    shownStatus j = j.status := by
  rw [shownStatus, if_neg]
  rintro ⟨ha, hp, -⟩
  simp [(hj.awaiting ha).2.1] at hp

/-- **`GET /compare/jobs/{id}` shows the stored status on every reachable state**, so the heal on read
never fires; and a reply that offers a payment code is for an unpaid job, with a nonempty code URL. -/
theorem getJob_reachable {key : String} {fees : Nat → Prop} {s : Sys} (hs : Reachable key fees s)
    (txt : JSONText) {id : String} {j : CompareJob} (hj : s.world.read key id = .found j) :
    (handleGetJob txt (s.world.read key id)).field "status" = some j.status.text ∧
      ∀ u, (handleGetJob txt (s.world.read key id)).field "code_url" = some u →
        u = j.codeURL ∧ u ≠ "" ∧ j.paid = false := by
  have hi := hs.sysInv.1 j (World.read_found hj)
  rw [hj, handleGetJob_status, handleGetJob_codeURL, shownStatus_of_jobInv hi]
  refine ⟨rfl, fun u hu => ?_⟩
  split_ifs at hu with ha
  cases hu
  exact ⟨rfl, (hi.awaiting ha).2.2, (hi.awaiting ha).2.1⟩

/-- What the query is written with in the witness below. -/
def sampleText : JSONText := ⟨"2026-01-01T00:00:00Z", toString, toString⟩

theorem getJob_reachable_awaitingPath : ∃ s j, Reachable "job_1" (fun fee => 0 < fee) s ∧
    s.world.read "job_1" "job_1" = .found j ∧ j.status = .awaitingPayment ∧
    (handleGetJob sampleText (s.world.read "job_1" "job_1")).field "status" = some j.status.text ∧
      ∀ u, (handleGetJob sampleText (s.world.read "job_1" "job_1")).field "code_url" = some u →
        u = j.codeURL ∧ u ≠ "" ∧ j.paid = false := by
  have hrun : (Sys.run? "job_1" Sys.init awaitingPath).map (fun s => s.world.job.map (·.status)) =
      some (some .awaitingPayment) := by decide
  obtain ⟨s, hs, hst⟩ := Option.map_eq_some'.1 hrun
  obtain ⟨j, hj, hjs⟩ := Option.map_eq_some'.1 hst
  have hr : Reachable "job_1" (fun fee => 0 < fee) s := Sys.run?_steps _ _ _ _ _ hs fun a ha => by
    simp [awaitingPath, intakeJob1] at ha
    rcases ha with rfl | rfl | rfl <;> simp [Actor.FeeIn]
  have hread : s.world.read "job_1" "job_1" = .found j := by rw [World.read_of_hits (by decide), hj]
  exact ⟨s, j, hr, hread, hjs, getJob_reachable hr sampleText hread⟩

end Guangyang
