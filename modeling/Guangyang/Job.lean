import Guangyang.GoText
/-!
# Job — the compare-job record and every closure the backend hands to `Update`

`domain.CompareJob` is the record the Redis store keeps under `gy:comparejob:<id>`.  Every state change
of the pipeline is one of the closures below, passed to `CompareJobStore.Update` by the compare worker,
the paygate worker, the notify handler, the cancel route or the intake; they are collected in `Mutator`
so that a run of a handler can be written down as the list of store calls it makes (`Prog`).

`AmountYuan` is a `float64` that is only ever written as `float64(feeFen) / 100.0` or `0` and only read
back as `int64(math.Round(AmountYuan * 100))`; the record keeps the fen count it was written from
(`amountFen`), which is what that round trip returns for every fee below 2^51 fen.
-/
namespace Guangyang

/-- `domain.CompareJobStatus`. -/
inductive CompareJobStatus
  | processing
  | awaitingPayment
  | ready
  | failed
  | cancelled
  deriving DecidableEq, Repr

/-- `domain.CompareJob`, the fields a modelled handler reads or writes. -/
structure CompareJob where
  id : String
  status : CompareJobStatus
  file1OSSKey : String
  file2OSSKey : String
  file1Name : String
  file2Name : String
  resultPath : String
  resultOSSKey : String
  amountFen : Nat
  codeURL : String
  paid : Bool
  paidAt : Option Nat
  cancelledAt : Option Nat
  error : String
  deriving DecidableEq, Repr

namespace CompareJob

/-- `hasResult` (notify.go, service.go). -/
def hasResult (j : CompareJob) : Bool :=
  trimSpace j.resultOSSKey != "" || trimSpace j.resultPath != ""

/-- The fields the paygate worker writes when it releases a job (its paid and its free branch). -/
def released (ossKey : String) (j : CompareJob) : CompareJob :=
  { j with status := .ready, resultOSSKey := ossKey, resultPath := "", amountFen := 0, codeURL := "",
           error := "" }

end CompareJob

/-- The closures passed to `CompareJobStore.Update`. -/
inductive Mutator
  /-- compare worker, "Mark as processing (best-effort)". -/
  | markProcessing
  /-- compare worker, "Persist result location early". -/
  | persistResult (ossKey : String)
  /-- `Worker.fail` of both workers, and the intake's enqueue-failure write. -/
  | fail (msg : String)
  /-- paygate worker, "If payment already confirmed, release". -/
  | release (ossKey : String)
  /-- paygate worker, the free path (`feeFen <= 0`). -/
  | free (ossKey : String) (now : Nat)
  /-- paygate worker, after `CreateNativeOrder` returned a code URL. -/
  | awaitPayment (ossKey : String) (feeFen : Nat) (codeURL : String)
  /-- `notifyHandler.handle`'s `update`. -/
  | notifyPaid (now : Nat)
  /-- `Service.handleCancelJob`. -/
  | cancel (now : Nat)

namespace Mutator

/-- What each closure does to the record it is handed. -/
def apply : Mutator → CompareJob → CompareJob
  | markProcessing, j => if j.status = .cancelled then j else { j with status := .processing, error := "" }
  | persistResult k, j => if j.status = .cancelled then j else { j with resultOSSKey := k, resultPath := "" }
  | fail msg, j => { j with status := .failed, error := msg }
  | release k, j => if j.status = .cancelled then j else j.released k
  | free k now, j =>
    if j.status = .cancelled then j
    else (if j.paid then j else { j with paid := true, paidAt := some now }).released k
  | awaitPayment k fee url, j =>
    if j.status = .cancelled ∨ j.paid then j
    else { j with status := .awaitingPayment, resultOSSKey := k, resultPath := "", amountFen := fee,
                  codeURL := url, error := "" }
  | notifyPaid now, j =>
    if j.paid then j
    else if j.hasResult ∧ (j.status = .awaitingPayment ∨ j.status = .processing) then
      { j with paid := true, paidAt := some now, status := .ready, amountFen := 0, codeURL := "" }
    else if j.status = .awaitingPayment then { j with paid := true, paidAt := some now, status := .processing }
    else { j with paid := true, paidAt := some now }
  | cancel now, j => if j.paid then j else { j with status := .cancelled, cancelledAt := some now }

/-- **No closure clears `Paid`.** -/
theorem paid_apply (m : Mutator) (j : CompareJob) (h : j.paid = true) : (m.apply j).paid = true := by
  cases m <;> simp only [apply, CompareJob.released] <;> (try split_ifs) <;> simp [h]

theorem paid_notifyPaid (now : Nat) (j : CompareJob) : ((notifyPaid now).apply j).paid = true := by
  simp only [apply]; split_ifs <;> simp_all

/-- **The notify closure leaves a paid record as it is.** -/
theorem notifyPaid_of_paid (now : Nat) {j : CompareJob} (h : j.paid = true) : (notifyPaid now).apply j = j := by
  simp [apply, h]

end Mutator

end Guangyang
