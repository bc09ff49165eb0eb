import Guangyang.Routes
import Guangyang.Ossstore
/-!
# Metrics — the route label of a request

`obs.MetricsMiddleware` counts every request under the label `normalizeRouteLabel` gives its path: the job
id of a path under `/compare/jobs/` is replaced by `:jobId`, and the piece after it is kept.

- Every request at a job's canonical path reaches its handler and is counted under the handler's label,
  which holds no job id (`canonical_route_label`).
- Any other piece after the id is kept in the label as the client wrote it (`routeLabel_keeps_segment`),
  so requests the router answers `404` make as many labels as there are pieces
  (`routeLabels_unbounded`).  A trailing slash, which the router serves as the job query, is counted
  under `/compare/jobs/:jobId/`, and a path with `//` before the id carries the id itself.
-/
namespace Guangyang

/-- `obs.normalizeRouteLabel`. -/
def normalizeRouteLabel (path : String) : String :=
  let p := trimSpace path
  if p = "" then "/" else
  if "/compare/jobs/".data.isPrefixOf p.data then
    let parts := (cutHead "/compare/jobs/".data p.data).splitOn '/'
    if parts.length = 1 then "/compare/jobs/:jobId"
    else if parts.length ≥ 2 then
      if parts.getD 1 [] = "export".data then "/compare/jobs/:jobId/export"
      else if parts.getD 1 [] = "cancel".data then "/compare/jobs/:jobId/cancel"
      else "/compare/jobs/:jobId/" ++ ⟨parts.getD 1 []⟩
    else p
  else p

/-- The label a handler's requests are meant to be counted under. -/
def Target.label : Target → String
  | .getJob => "/compare/jobs/:jobId"
  | .downloadExport => "/compare/jobs/:jobId/export"
  | .cancelJob => "/compare/jobs/:jobId/cancel"

/-- Trimming a job path trims only the end of what follows the prefix. -/
theorem trimSpace_jobPath (B : List Char) :
    (trimSpace ⟨"/compare/jobs/".data ++ B⟩).data = "/compare/jobs/".data ++ B.rdropWhile isSpace := by
  have e : ∀ X, "/compare/jobs/".data ++ X = ('/' :: "compare/jobs".data) ++ '/' :: X := fun _ => rfl
  show (("/compare/jobs/".data ++ B).dropWhile isSpace).rdropWhile isSpace = _
  rw [e B, e (B.rdropWhile isSpace), List.cons_append, List.dropWhile_cons_of_neg (by decide), ← List.cons_append,
    rdropWhile_append_cons (by decide)]

/-- A job path whose last piece holds no white space is trimmed to itself. -/
theorem trimSpace_jobPath_slash (j : List Char) {s : List Char} (hsp : ∀ c ∈ s, isSpace c = false) :
    (trimSpace ⟨"/compare/jobs/".data ++ (j ++ '/' :: s)⟩).data = "/compare/jobs/".data ++ (j ++ '/' :: s) := by
  have hs : s.rdropWhile isSpace = s :=
    List.rdropWhile_eq_self_iff.2 fun hl => by simp [hsp _ (List.getLast_mem hl)]
  rw [trimSpace_jobPath, rdropWhile_append_cons (by decide), hs]

theorem isPrefixOf_jobPath (B : List Char) : "/compare/jobs/".data.isPrefixOf ("/compare/jobs/".data ++ B) = true :=
  List.isPrefixOf_iff_prefix.2 (List.prefix_append _ _)

/-- The label of a job path whose rest is one piece. -/
theorem normalizeRouteLabel_one {path : String} {B : List Char}
    (h : (trimSpace path).data = "/compare/jobs/".data ++ B) (hB : '/' ∉ B) :
    normalizeRouteLabel path = "/compare/jobs/:jobId" := by
  have hs : B.splitOn '/' = [B] :=
    splitOn_eq_iff.2 ⟨List.cons_ne_nil _ _, fun x hx => List.mem_singleton.1 hx ▸ hB, by simp [List.intercalate]⟩
  have hne : trimSpace path ≠ "" := fun e => by rw [e] at h; cases h
  dsimp only [normalizeRouteLabel]
  rw [if_neg hne, h, if_pos (isPrefixOf_jobPath B), cutHead_append, hs, if_pos (List.length_singleton B)]

/-- The label of a job path whose rest is two pieces keeps the second, unless it names a handler. -/
theorem normalizeRouteLabel_two {path : String} {j s : List Char}
    (h : (trimSpace path).data = "/compare/jobs/".data ++ (j ++ '/' :: s)) (hj : '/' ∉ j) (hs : '/' ∉ s) :
    normalizeRouteLabel path =
      if s = "export".data then "/compare/jobs/:jobId/export"
      else if s = "cancel".data then "/compare/jobs/:jobId/cancel"
      else "/compare/jobs/:jobId/" ++ ⟨s⟩ := by
  have hsplit : (j ++ '/' :: s).splitOn '/' = [j, s] :=
    splitOn_eq_iff.2 ⟨List.cons_ne_nil _ _, by simp [hj, hs], by simp [List.intercalate]⟩
  have hne : trimSpace path ≠ "" := fun e => by rw [e] at h; cases h
  dsimp only [normalizeRouteLabel]
  rw [if_neg hne, h, if_pos (isPrefixOf_jobPath _), cutHead_append, hsplit, if_neg (by simp), if_pos (by simp)]
  rfl

/-- **A request at a job's canonical path reaches its handler and is counted under the handler's label**,
whatever the id. -/
theorem canonical_route_label (t : Target) {j : String} (hj : j.data ≠ []) (hs : '/' ∉ j.data) :
    handleJobRoutes t.method ("/compare/jobs/" ++ j ++ t.suffix) = .handle t j ∧
      normalizeRouteLabel ("/compare/jobs/" ++ j ++ t.suffix) = t.label := by
  refine ⟨handleJobRoutes_canonical t hj hs, ?_⟩
  have hpath : ("/compare/jobs/" ++ j ++ t.suffix : String) = ⟨"/compare/jobs/".data ++ (j.data ++ t.suffix.data)⟩ :=
    String.ext (by simp)
  rw [hpath]
  cases t with
  | getJob =>
    refine normalizeRouteLabel_one (trimSpace_jobPath _) fun hm => hs ?_
    simpa using (List.rdropWhile_prefix (p := isSpace) (l := j.data ++ [])).subset hm
  | downloadExport =>
    exact (normalizeRouteLabel_two (trimSpace_jobPath_slash j.data (s := "export".data) (by decide)) hs
      (by decide)).trans (if_pos rfl)
  | cancelJob =>
    exact (normalizeRouteLabel_two (trimSpace_jobPath_slash j.data (s := "cancel".data) (by decide)) hs
      (by decide)).trans ((if_neg (by decide)).trans (if_pos rfl))

theorem canonical_route_label_export :
    ("job_1" : String).data ≠ [] ∧ '/' ∉ ("job_1" : String).data ∧
    handleJobRoutes Target.downloadExport.method ("/compare/jobs/" ++ "job_1" ++ Target.downloadExport.suffix) =
      .handle .downloadExport "job_1" ∧
    normalizeRouteLabel ("/compare/jobs/" ++ "job_1" ++ Target.downloadExport.suffix) = Target.downloadExport.label :=
  ⟨by decide, by decide, canonical_route_label .downloadExport (by decide) (by decide)⟩

/-- The label keeps whatever piece follows the job id, when it names no handler.  The piece may be empty
(a trailing slash) and the id may be (a path with `//`). -/
theorem routeLabel_keeps_segment {j s : String} (hj : '/' ∉ j.data) (hs : '/' ∉ s.data)
    (hsp : ∀ c ∈ s.data, isSpace c = false) (he : s ≠ "export") (hc : s ≠ "cancel") :
    normalizeRouteLabel ("/compare/jobs/" ++ j ++ "/" ++ s) = "/compare/jobs/:jobId/" ++ s := by
  have hpath : ("/compare/jobs/" ++ j ++ "/" ++ s : String) = ⟨"/compare/jobs/".data ++ (j.data ++ '/' :: s.data)⟩ :=
    String.ext (by simp)
  rw [hpath, normalizeRouteLabel_two (trimSpace_jobPath_slash j.data hsp) hj hs,
    if_neg (fun e => he (String.ext e)), if_neg (fun e => hc (String.ext e))]

/-- A trailing slash: the router serves the job query, and the request is counted under another label. -/
example : handleJobRoutes "GET" "/compare/jobs/job_1/" = .handle .getJob "job_1" ∧
    normalizeRouteLabel "/compare/jobs/job_1/" = "/compare/jobs/:jobId/" := by
  decide

/-- A request for a job id and a piece that names no handler is answered `404`. -/
theorem handleJobRoutes_unknown (method : String) {j s : String} (hj : j.data ≠ []) (hjs : '/' ∉ j.data)
    (hs : s.data ≠ []) (hss : '/' ∉ s.data) (he : s ≠ "export") (hc : s ≠ "cancel") :
    handleJobRoutes method ("/compare/jobs/" ++ j ++ "/" ++ s) = .reply (.error 404 "404 page not found") := by
  obtain ⟨c, r, hcr⟩ := List.exists_cons_of_ne_nil hj
  obtain ⟨s', d, hsd⟩ := List.eq_nil_or_concat s.data |>.resolve_left hs
  rw [List.concat_eq_append] at hsd
  have hd : d ≠ '/' := fun h => hss (hsd ▸ h ▸ List.mem_concat_self _ _)
  have htrim : trimSlashes (cutHead "/compare/jobs/".data ("/compare/jobs/" ++ j ++ "/" ++ s).data) =
      j.data ++ '/' :: s.data := by
    rw [show ("/compare/jobs/" ++ j ++ "/" ++ s).data = "/compare/jobs/".data ++ (j.data ++ '/' :: s.data) by simp,
      cutHead_append]
    refine trimSlashes_eq_self ?_ ?_
    · rw [hcr]; exact fun h => hjs (hcr ▸ Option.some.inj h ▸ List.mem_cons_self _ _)
    · rw [hsd, ← List.cons_append, ← List.append_assoc, List.getLast?_concat]
      exact fun h => hd (Option.some.inj h)
  have hsplit : (j.data ++ '/' :: s.data).splitOn '/' = [j.data, s.data] :=
    splitOn_eq_iff.2 ⟨List.cons_ne_nil _ _, by simp [hjs, hss], by simp [List.intercalate]⟩
  dsimp only [handleJobRoutes]
  rw [htrim, if_neg (by simp), hsplit]
  simp only [routeParts, List.headD_cons, List.length_cons, List.length_nil, List.getD_cons_succ,
    List.getD_cons_zero, if_neg hj]
  rw [if_neg (by decide), if_neg (fun h => he (String.ext h.2)), if_neg (fun h => hc (String.ext h.2))]

/-- **The label set is unbounded**: for a job id and any `n`, `n` requests that the router answers
`404 page not found` are counted under `n` different labels. -/
theorem routeLabels_unbounded {j : String} (hj : j.data ≠ []) (hs : '/' ∉ j.data) (n : Nat) :
    ∃ segs : List String, segs.length = n ∧
      (∀ s ∈ segs, handleJobRoutes "GET" ("/compare/jobs/" ++ j ++ "/" ++ s) =
        .reply (.error 404 "404 page not found")) ∧
      (segs.map fun s => normalizeRouteLabel ("/compare/jobs/" ++ j ++ "/" ++ s)).Nodup := by
  obtain ⟨seg, hseg⟩ : ∃ seg : Nat → String, ∀ k, (seg k).data = List.replicate (k + 1) 'a' :=
    ⟨fun k => ⟨List.replicate (k + 1) 'a'⟩, fun _ => rfl⟩
  have ha : ∀ k, ∀ c ∈ (seg k).data, c = 'a' := fun k c h => List.eq_of_mem_replicate (hseg k ▸ h)
  have hsl : ∀ k, '/' ∉ (seg k).data := fun k h => absurd (ha k _ h) (by decide)
  have hsp : ∀ k, ∀ c ∈ (seg k).data, isSpace c = false := fun k c h => by rw [ha k c h]; rfl
  have hne : ∀ k (w : String), w.data.head? ≠ some 'a' → seg k ≠ w := fun k w hw h => hw (by rw [← h, hseg]; rfl)
  have hlabel : ∀ k, normalizeRouteLabel ("/compare/jobs/" ++ j ++ "/" ++ seg k) = "/compare/jobs/:jobId/" ++ seg k :=
    fun k => routeLabel_keeps_segment hs (hsl k) (hsp k) (hne k _ (by decide)) (hne k _ (by decide))
  have hinj : Function.Injective seg := fun a b h => by
    simpa [hseg] using congrArg (fun t : String => t.data.length) h
  refine ⟨(List.range n).map seg, by simp, ?_, ?_⟩
  · simp only [List.mem_map, List.mem_range]
    rintro _ ⟨k, -, rfl⟩
    exact handleJobRoutes_unknown "GET" hj hs (by simp [hseg]) (hsl k) (hne k _ (by decide)) (hne k _ (by decide))
  · simp only [List.map_map, Function.comp_def, hlabel]
    exact (List.nodup_range n).map fun a b h => hinj (String.ext (List.append_cancel_left (congrArg String.data h)))

theorem routeLabels_unbounded_job1 : ("job_1" : String).data ≠ [] ∧ '/' ∉ ("job_1" : String).data ∧
    ∃ segs : List String, segs.length = 2 ∧
      (∀ s ∈ segs, handleJobRoutes "GET" ("/compare/jobs/" ++ "job_1" ++ "/" ++ s) =
        .reply (.error 404 "404 page not found")) ∧
      (segs.map fun s => normalizeRouteLabel ("/compare/jobs/" ++ "job_1" ++ "/" ++ s)).Nodup :=
  ⟨by decide, by decide, routeLabels_unbounded (by decide) (by decide) 2⟩

end Guangyang
