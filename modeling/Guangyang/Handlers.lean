import Guangyang.Job
/-!
# Handlers — the compare worker, the paygate worker, the notify handler, the cancel route and the intake

Each handler is written as the sequence of job-store calls it makes (`Prog`): a `Get` whose answer the
rest of the run branches on, an `Update` with one of the closures of `Mutator`, the intake's `Create`,
and the effects outside the store (a stream message, a payment order).  Everything else a run depends
on — the lease, downloads, the conversion, the diff, the payment provider — is an input (`…Env`).

`Prog.run` runs one handler alone against the record under one key, with the store calls that fail; the
interleaving of many runs is `Pipeline`.
-/
namespace Guangyang

/-- What `CompareJobStore.Get` returns: an error, `ok == false`, or a copy of the record. -/
inductive Read
  | err
  | missing
  | found (j : CompareJob)

/-- The effects of a run outside the job store. -/
inductive Effect
  | enqueueCompare (jobID : String)
  | enqueuePaygate (jobID : String)
  | createOrder (jobID : String) (feeFen : Nat)
  | closeOrder (jobID : String)
  deriving DecidableEq, Repr

/-- A handler run, as the store calls and effects it makes. -/
inductive Prog (α : Type) where
  | ret (a : α)
  | get (id : String) (k : Read → Prog α)
  | update (id : String) (m : Mutator) (k : Prog α)
  | create (j : CompareJob) (k : Prog α)
  | emit (e : Effect) (k : Prog α)

/-- The record stored under one key, and the effects made so far. -/
structure World where
  job : Option CompareJob
  effects : List Effect

namespace World

/-- Whether a call with `id` reaches the record under `key`: the store trims the id, and refuses `""`. -/
def hits (key id : String) : Bool := trimSpace id == key && key != ""

theorem hits_iff {key id : String} : hits key id = true ↔ trimSpace id = key ∧ key ≠ "" := by
  simp [hits]

/-- `RedisCompareJobStore.Get`, fault-free. -/
def read (key : String) (w : World) (id : String) : Read :=
  if hits key id then (match w.job with | some j => .found j | none => .missing) else .missing

/-- `RedisCompareJobStore.Update`, fault-free: the closure runs on the stored record, if there is one. -/
def write (key : String) (w : World) (id : String) (m : Mutator) : World :=
  if hits key id then { w with job := w.job.map m.apply } else w

/-- `RedisCompareJobStore.Create` (`SETNX`), fault-free. -/
def insert (key : String) (w : World) (j : CompareJob) : World :=
  if hits key j.id && w.job.isNone then { w with job := some j } else w

def emit (w : World) (e : Effect) : World := { w with effects := e :: w.effects }

@[simp] theorem emit_job (w : World) (e : Effect) : (w.emit e).job = w.job := rfl

@[simp] theorem emit_effects (w : World) (e : Effect) : (w.emit e).effects = e :: w.effects := rfl

@[simp] theorem write_effects (key id : String) (w : World) (m : Mutator) :
    (w.write key id m).effects = w.effects := by
  unfold write; split <;> rfl

theorem read_of_hits {key id : String} (h : hits key id = true) (w : World) :
    w.read key id = match w.job with | some j => .found j | none => .missing := by
  simp [read, h]

theorem write_of_hits {key id : String} (h : hits key id = true) (w : World) (m : Mutator) :
    w.write key id m = { w with job := w.job.map m.apply } := by
  simp [write, h]

theorem write_job_some {key id : String} (h : hits key id = true) {w : World} {j : CompareJob}
    (hj : w.job = some j) (m : Mutator) : (w.write key id m).job = some (m.apply j) := by
  simp [write, h, hj]

end World

/-- **One run alone** against the record under `key`.  `gets` says, `Get` by `Get`, which ones fail and
`writes`, `Update` or `Create` by call, which ones fail: a failed `Get` reports its error, a failed write
writes nothing. -/
def Prog.run {α : Type} (key : String) : Prog α → (gets writes : List Bool) → World → α × World
  | .ret a, _, _, w => (a, w)
  | .get id k, gs, ws, w => (k (if gs.headD false then .err else w.read key id)).run key gs.tail ws w
  | .update id m k, gs, ws, w => k.run key gs ws.tail (if ws.headD false then w else w.write key id m)
  | .create j k, gs, ws, w => k.run key gs ws.tail (if ws.headD false then w else w.insert key j)
  | .emit e k, gs, ws, w => k.run key gs ws (w.emit e)

/-! ## Handler results and replies -/

/-- What a worker's `Process` returns to `Consumer.handleOne`: `nil`, a `Terminal` error, or another
error. -/
inductive HandlerResult
  | ok
  | terminal
  | transient
  deriving DecidableEq, Repr

/-- `handleOne`'s ack rule: `nil` or `Terminal` is acknowledged, anything else stays pending. -/
def HandlerResult.acks : HandlerResult → Bool
  | .transient => false
  | _ => true

/-- An HTTP reply: `writeJSON` with its fields, `http.Error` with its text, or `WriteHeader` alone. -/
inductive Reply
  | json (status : Nat) (fields : List (String × String))
  | error (status : Nat) (text : String)
  | bare (status : Nat)
  deriving DecidableEq, Repr

/-- The HTTP status of a reply. -/
def Reply.status : Reply → Nat
  | .json s _ => s
  | .error s _ => s
  | .bare s => s

/-- `redislock.Client.Acquire`, from a worker's point of view. -/
inductive LeaseOutcome
  | acquired
  | notAcquired
  | error
  deriving DecidableEq, Repr

/-- `w.fail(jobID, err)` followed by `return streamq.Terminal(...)`. -/
def failRun (jobID msg : String) : Prog HandlerResult :=
  if trimSpace jobID = "" then .ret .terminal else .update jobID (.fail msg) (.ret .terminal)

/-! ## The compare worker (`compare.Worker.Process`) -/

/-- The steps between "mark processing" and the result upload, each of which ends the run through
`w.fail` when it returns an error. -/
inductive ComputeStep
  | mkdirJobDir
  | download1
  | download2
  | convert1
  | convert2
  | generate
  | upload
  deriving DecidableEq, Repr

/-- The text `w.fail` records for a failed step, from the step's own error text. -/
def ComputeStep.message : ComputeStep → String → String
  | .mkdirJobDir, e => "创建 jobDir 失败: " ++ e
  | .download1, e => "下载输入文件1失败: " ++ e
  | .download2, e => "下载输入文件2失败: " ++ e
  | .convert1, e => e
  | .convert2, e => e
  | .generate, e => e
  | .upload, e => "上传 OSS 失败: " ++ e

/-- What one compare run gets from outside the job store. -/
structure CompareEnv where
  lease : LeaseOutcome
  /-- `OSS_PREFIX`, the prefix of `ObjectKeyForJob`. -/
  ossPrefix : String
  /-- The short-circuit's paygate enqueue succeeds. -/
  firstEnqueue : Bool
  /-- The first compute step that fails, with its error text. -/
  failure : Option (ComputeStep × String)
  /-- The last paygate enqueue succeeds. -/
  lastEnqueue : Bool

/-- `ossstore.Store.ObjectKeyForJob`: `path.Join(prefix, jobID, "compare.xlsx")`, without `path.Clean`. -/
def objectKeyForJob (pfx jobID : String) : String :=
  (if pfx = "" then "" else pfx ++ "/") ++ trimSpace jobID ++ "/compare.xlsx"

/-- `payq.Enqueue(jobID)`, then `Terminal(nil)`; a failed enqueue keeps the message pending. -/
def enqueuePaygate (jobID : String) (ok : Bool) : Prog HandlerResult :=
  if ok then .emit (.enqueuePaygate jobID) (.ret .terminal) else .ret .transient

/-- The compare worker after it persisted the result location: re-read, then enqueue the paygate. -/
def compareReread (jobID : String) (env : CompareEnv) : Read → Prog HandlerResult
  | .err => .ret .transient
  | .missing => .ret .ok
  | .found job => if job.status = .cancelled then .ret .terminal else enqueuePaygate jobID env.lastEnqueue

/-- The compare worker after its first `Get` found the record. -/
def compareFound (jobID : String) (env : CompareEnv) (job : CompareJob) : Prog HandlerResult :=
  if job.status = .cancelled then .ret .terminal
  else if job.status = .ready ∨ job.status = .failed then .ret .terminal
  else if trimSpace job.resultOSSKey ≠ "" ∧
      (job.status = .awaitingPayment ∨ job.status = .processing) then enqueuePaygate jobID env.firstEnqueue
  else if job.file1OSSKey = "" ∨ job.file2OSSKey = "" then failRun jobID "输入文件 OSSKey 为空"
  else .update jobID .markProcessing <|
    match env.failure with
    | some (step, e) => failRun jobID (step.message e)
    | none => .update jobID (.persistResult (objectKeyForJob env.ossPrefix jobID)) <|
        .get jobID (compareReread jobID env)

/-- `compare.Worker.Process` (OSS enabled and the paygate queue set, as `compare-worker` builds it). -/
def compareProcess (jobID : String) (env : CompareEnv) : Prog HandlerResult :=
  match env.lease with
  | .error => .ret .transient
  | .notAcquired => .ret .terminal
  | .acquired => .get jobID fun
    | .err => .ret .transient
    | .missing => .ret .ok
    | .found job => compareFound jobID env job

/-! ## The paygate worker (`paygate.Worker.Process`) -/

/-- A code URL as `CreateNativeOrder` returns it on success: never blank (the mock's URL is not, and the
real call rejects a blank `code_url`). -/
abbrev CodeURL := { url : String // trimSpace url ≠ "" }

/-- What one paygate run gets from outside the job store. -/
structure PaygateEnv where
  lease : LeaseOutcome
  /-- `FeeFen()` at this run. -/
  feeFen : Nat
  now : Nat
  /-- What `CreateNativeOrder(jobID, feeFen)` returns, if it is called. -/
  order : Except String CodeURL

/-- The paygate worker after its `Get` found the record. -/
def paygateFound (jobID : String) (env : PaygateEnv) (job : CompareJob) : Prog HandlerResult :=
  if job.status = .cancelled ∨ job.status = .ready ∨ job.status = .failed then .ret .terminal
  else if trimSpace job.resultOSSKey = "" then .ret .transient
  else if job.paid then .update jobID (.release (trimSpace job.resultOSSKey)) (.ret .terminal)
  else if env.feeFen = 0 then .update jobID (.free (trimSpace job.resultOSSKey) env.now) (.ret .terminal)
  else if job.status = .awaitingPayment ∧ trimSpace job.codeURL ≠ "" then .ret .terminal
  else match env.order with
    | .error e => failRun jobID ("创建微信支付订单失败: " ++ e)
    | .ok url => .emit (.createOrder jobID env.feeFen) <|
        .update jobID (.awaitPayment (trimSpace job.resultOSSKey) env.feeFen url.1) (.ret .terminal)

/-- `paygate.Worker.Process`. -/
def paygateProcess (jobID : String) (env : PaygateEnv) : Prog HandlerResult :=
  if trimSpace jobID = "" then .ret .terminal
  else match env.lease with
    | .error => .ret .transient
    | .notAcquired => .ret .terminal
    | .acquired => .get (trimSpace jobID) fun
      | .err => .ret .transient
      | .missing => .ret .terminal
      | .found job => paygateFound (trimSpace jobID) env job

/-! ## The notify handler (`notifyHandler.handle`, after verification and decryption) -/

/-- `wechatpayTransaction`, decrypted from a verified notification. -/
structure Transaction where
  outTradeNo : String
  tradeState : String
  amountTotal : Int
  deriving DecidableEq, Repr

/-- The amount the handler expects: `int64(math.Round(job.AmountYuan * 100))`, or 1 fen when that is
not positive.  The record holds the fee in fen; the code stores `AmountYuan = float64(fee) / 100`, and
the float64 round trip gives the fee back for every fee below `2^51` fen, the range the payment theorems
assume (above it the code can expect another amount). -/
def expectedFen (j : CompareJob) : Int := if j.amountFen = 0 then 1 else j.amountFen

/-- `writeJSON(w, status, {"code": code, "message": message})`. -/
def notifyReply (status : Nat) (code message : String) : Reply :=
  .json status [("code", code), ("message", message)]

/-- The notify handler's `update()` and its `SUCCESS` reply. -/
def notifyUpdate (jobID : String) (now : Nat) : Prog Reply :=
  .update jobID (.notifyPaid now) (.ret (notifyReply 200 "SUCCESS" "OK"))

/-- The notify handler after its amount-check `Get`. -/
def notifyChecked (tx : Transaction) (now : Nat) : Read → Prog Reply
  | .found job =>
    if tx.amountTotal ≠ expectedFen job then .ret (notifyReply 400 "FAIL" "amount mismatch")
    else notifyUpdate (trimSpace tx.outTradeNo) now
  | _ => notifyUpdate (trimSpace tx.outTradeNo) now

/-- `notifyHandler.handle` from the decrypted transaction on. -/
def notifyHandle (tx : Transaction) (now : Nat) : Prog Reply :=
  if trimSpace tx.outTradeNo = "" then .ret (notifyReply 400 "FAIL" "missing out_trade_no")
  else if toUpper tx.tradeState ≠ "SUCCESS" then .ret (notifyReply 200 "SUCCESS" "OK")
  else .get (trimSpace tx.outTradeNo) (notifyChecked tx now)

/-! ## Cancel and the intake (`compare.Service`) -/

/-- What one cancel request gets from outside the job store. -/
structure CancelEnv where
  now : Nat
  /-- What `CloseNativeOrder(jobID)` returns, if it is called. -/
  close : Except String Unit

/-- The cancel route's success reply. -/
def cancelledReply (jobID : String) : Reply :=
  .json 200 [("jobId", jobID), ("status", "cancelled"), ("cancelled", "true")]

/-- `Service.handleCancelJob` after its `Get` found the record. -/
def cancelFound (jobID : String) (env : CancelEnv) (job : CompareJob) : Prog Reply :=
  if job.status = .cancelled then .ret (cancelledReply job.id)
  else if job.paid ∨ job.status = .ready then .ret (.error 409 "订单已支付或已放行，无法取消")
  else
    let rest := Prog.update jobID (.cancel env.now) (.ret (cancelledReply jobID))
    if job.status = .awaitingPayment then
      match env.close with
      | .error e => .ret (.error 502 ("关闭微信订单失败: " ++ e))
      | .ok () => .emit (.closeOrder jobID) rest
    else rest

/-- `Service.handleCancelJob`. -/
def handleCancelJob (jobID : String) (env : CancelEnv) : Prog Reply :=
  .get jobID fun
  | .err => .ret (.error 500 "server error")
  | .missing => .ret (.error 404 "404 page not found")
  | .found job => cancelFound jobID env job

/-- The record the intake creates. -/
def newJob (jobID key1 key2 name1 name2 : String) : CompareJob :=
  { id := jobID, status := .processing, file1OSSKey := key1, file2OSSKey := key2, file1Name := name1,
    file2Name := name2, resultPath := "", resultOSSKey := "", amountFen := 0, codeURL := "", paid := false,
    paidAt := none, cancelledAt := none, error := "" }

/-- The places where the intake answers before it reaches `Create`, in the handler's order. -/
inductive IntakeRefusal
  | options
  | methodNotAllowed
  | invalidMultipartForm
  | jobDir
  | invalidMultipartStream
  /-- `saveUploadTo` failed for the form part `name` (`file1` or `file2`). -/
  | saveFailed (name : String)
  | missingFile
  | ossDisabled
  /-- `PutFileFromPath` of either input failed with this error text. -/
  | uploadFailed (e : String)
  deriving DecidableEq, Repr

/-- The intake's answer at each of those places. -/
def IntakeRefusal.reply : IntakeRefusal → Reply
  | .options => .bare 204
  | .methodNotAllowed => .error 405 "method not allowed"
  | .invalidMultipartForm => .error 400 "invalid multipart form"
  | .jobDir => .error 500 "failed to create job dir"
  | .invalidMultipartStream => .error 400 "invalid multipart stream"
  | .saveFailed name => .error 500 ("failed to save " ++ name)
  | .missingFile => .error 400 "missing file1 or file2"
  | .ossDisabled => .error 503 "OSS 未启用：无法在 worker 模式下处理上传"
  | .uploadFailed e => .error 502 ("上传 OSS 失败: " ++ e)

/-- **No refusal answers 200.** -/
theorem IntakeRefusal.reply_status_ne (r : IntakeRefusal) : r.reply.status ≠ 200 := by
  cases r <;> simp [reply, Reply.status]

/-- What one intake request gets from outside the job store. -/
structure IntakeEnv where
  /-- Where the request was refused before `Create`, if it was. -/
  upload : Option IntakeRefusal
  /-- What the compare-stream `Enqueue` returns. -/
  enqueue : Except String Unit

/-- `Service.handleCreateJob`, for the inputs uploaded under `key1`, `key2`. -/
def handleCreateJob (jobID key1 key2 name1 name2 : String) (env : IntakeEnv) : Prog Reply :=
  match env.upload with
  | some r => .ret r.reply
  | none => .create (newJob jobID key1 key2 name1 name2) <|
    match env.enqueue with
    | .ok () => .emit (.enqueueCompare jobID) (.ret (.json 200 [("jobId", jobID), ("status", "processing")]))
    | .error e => .update jobID (.fail ("投递任务失败: " ++ e)) (.ret (.error 502 "投递任务失败"))

/-- `Service.handleDownloadExport` on what its `Get` returned; `signed` stands for `SignDownloadURL` of
the result key (JSON mode).  Only a paid, ready job with a result is released. -/
def handleDownloadExport (signed : String → String) : Read → Reply
  | .err => .error 500 "server error"
  | .missing => .error 404 "404 page not found"
  | .found job =>
    if job.status = .cancelled then .error 410 "订单已取消"
    else if job.paid = false ∨ job.status ≠ .ready ∨ job.hasResult = false then
      .error 402 "请先完成支付后再下载结果"
    else if job.resultOSSKey ≠ "" then .json 200 [("url", signed job.resultOSSKey), ("filename", "比对结果.xlsx")]
    else if job.resultPath = "" then .error 410 "结果文件不存在或已过期"
    else .json 200 [("url", job.resultPath), ("filename", "比对结果.xlsx")]

end Guangyang
