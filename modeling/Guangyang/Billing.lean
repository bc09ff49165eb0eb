import Guangyang.Handlers
import Mathlib.Data.List.Nodup
import Mathlib.Logic.Function.Basic
import Mathlib.Algebra.Ring.Int.Defs
/-!
# Billing — the billing stub's in-memory store and its routes

Next to the compare routes, `main.go` serves a demo balance: `POST /billing/pending` records a pending
charge under an idempotency key, `POST /billing/deduct` charges a key, and `GET /profile` reports
`max(0, 100 - totalDeducted)`.  The store's mutex makes each call atomic, so any interleaving of requests
is a sequence of them (`runBilling`).

Over every such sequence the store charges each key at most once, and its running total is the sum of the
charges in the order they were made (`billing_charges_once`).  A charged event never changes again
(`charged_event_final`), and a request that names a charged key changes nothing: a deduction is answered
with the first charge's amount, whatever amount it asks for, and a pending request is answered `pending`
(`replays_on_charged_key`).

Amounts are `float64` in the source.  The store only adds them, compares them with `0` and subtracts the
total from the base balance, so the model takes any type with those operations, and every result holds
for all of them.
-/
namespace Guangyang
namespace Billing

variable {F : Type}

/-- `BillingEvent`, the fields a modelled function reads or writes. -/
structure BillingEvent (F : Type) where
  idempotencyKey : String
  amount : F
  apiCall : String
  confirmed : Bool
  deducted : Bool
  deriving DecidableEq, Repr

/-- `memoryStore`: the events by key, the base balance and the running total. -/
structure MemoryStore (F : Type) where
  events : String → Option (BillingEvent F)
  baseBalance : F
  totalDeducted : F

/-- `newMemoryStore`: no events, a virtual balance of 100. -/
def newMemoryStore [OfNat F 100] [Zero F] : MemoryStore F := ⟨fun _ => none, 100, 0⟩

/-- `memoryStore.ensurePending`: the stored event if there is one, else a new pending one. -/
def MemoryStore.ensurePending (s : MemoryStore F) (key : String) (amount : F) (apiCall : String) :
    BillingEvent F × MemoryStore F :=
  match s.events key with
  | some ev => (ev, s)
  | none =>
    let ev : BillingEvent F := ⟨key, amount, apiCall, false, false⟩
    (ev, { s with events := Function.update s.events key (some ev) })

theorem ensurePending_cases (s : MemoryStore F) (key : String) (amount : F) (apiCall : String) :
    (∃ ev, s.events key = some ev ∧ s.ensurePending key amount apiCall = (ev, s)) ∨
      s.events key = none ∧ s.ensurePending key amount apiCall =
        (⟨key, amount, apiCall, false, false⟩,
          { s with events := Function.update s.events key (some ⟨key, amount, apiCall, false, false⟩) }) := by
  unfold MemoryStore.ensurePending
  cases h : s.events key <;> simp

theorem ensurePending_baseBalance (s : MemoryStore F) (key : String) (amount : F) (apiCall : String) :
    (s.ensurePending key amount apiCall).2.baseBalance = s.baseBalance := by
  rcases ensurePending_cases s key amount apiCall with ⟨_, -, he⟩ | ⟨-, he⟩ <;> rw [he]

/-- The method checks `handleCreatePending` and `handleDeduct` make first. -/
def postOnly (method : String) (s : MemoryStore F) (next : Reply × MemoryStore F) : Reply × MemoryStore F :=
  if method = "OPTIONS" then (.bare 204, s)
  else if method ≠ "POST" then (.error 405 "method not allowed", s)
  else next

theorem postOnly_cases (method : String) (s : MemoryStore F) (next : Reply × MemoryStore F) :
    (postOnly method s next).2 = s ∨ postOnly method s next = next := by
  unfold postOnly
  split_ifs <;> simp

/-- `pendingRequest` as decoded; its `Metadata` is stored and never read back. -/
structure PendingRequest (F : Type) where
  amount : F
  apiCall : String
  idempotencyKey : String

/-- `deductRequest` as decoded. -/
structure DeductRequest (F : Type) where
  idempotencyKey : String
  amount : F
  apiCall : String

/-- How `writeJSON` writes an amount, and how `fmt.Sprintf("%.2f")` does. -/
structure AmountText (F : Type) where
  json : F → String
  twoDecimals : F → String

/-- `newKey(prefix)`, with `suffix` the hex of its 12 random bytes (or the clock, if reading them fails). -/
def newKey (pfx suffix : String) : String := pfx ++ "_" ++ suffix

theorem newKey_ne_empty (pfx suffix : String) : newKey pfx suffix ≠ "" := fun h => by
  simpa [newKey, String.length_append, show "_".length = 1 from rfl] using congrArg String.length h

/-- A request to the billing routes, its body as decoded (`none`: not JSON). -/
inductive BillingRequest (F : Type)
  | profile (method : String)
  | createPending (method : String) (body : Option (PendingRequest F)) (suffix : String)
  | deduct (method : String) (body : Option (DeductRequest F))

/-- The request's method, which `corsMiddleware` reads first. -/
def BillingRequest.method : BillingRequest F → String
  | .profile m => m
  | .createPending m _ _ => m
  | .deduct m _ => m

/-! ## The ledger -/

section Ledger

variable [Add F] [Zero F]

/-- **The store's ledger**: `log` lists the charges made so far, key and amount, in the order they were
made; every event is stored under its own key, and none under `""`. -/
structure Ledger (s : MemoryStore F) (log : List (String × F)) : Prop where
  keyed : ∀ k ev, s.events k = some ev → ev.idempotencyKey = k
  noBlank : s.events "" = none
  once : (log.map Prod.fst).Nodup
  charged : ∀ k a, (k, a) ∈ log ↔ ∃ ev, s.events k = some ev ∧ ev.deducted = true ∧ ev.amount = a
  total : s.totalDeducted = (log.map Prod.snd).foldl (· + ·) 0

variable {s : MemoryStore F} {log : List (String × F)}

theorem Ledger.init [OfNat F 100] : Ledger (newMemoryStore : MemoryStore F) [] :=
  ⟨fun _ _ h => (nomatch h), rfl, List.nodup_nil, fun _ _ => by simp [newMemoryStore], rfl⟩

/-- A key whose event is not charged has no charge in the ledger. -/
theorem Ledger.not_mem (h : Ledger s log) {k : String} (hk : ∀ ev, s.events k = some ev → ev.deducted = false) :
    k ∉ log.map Prod.fst := by
  simp only [List.mem_map, Prod.exists, exists_and_right, exists_eq_right, not_exists]
  intro a hka
  obtain ⟨ev, he, hd, -⟩ := (h.charged k a).1 hka
  simp [hk ev he] at hd

theorem Ledger.ensurePending (h : Ledger s log) {key : String} (hkey : key ≠ "") (amount : F) (apiCall : String) :
    Ledger (s.ensurePending key amount apiCall).2 log := by
  rcases ensurePending_cases s key amount apiCall with ⟨_, -, he⟩ | ⟨hn, he⟩
  · rw [he]; exact h
  rw [he]
  dsimp only
  have hk : key ∉ log.map Prod.fst := h.not_mem fun ev h' => by simp [hn] at h'
  refine ⟨fun k ev hev => ?_, ?_, h.once, fun k a => ?_, h.total⟩
  · by_cases hkk : k = key
    · subst hkk
      simp only [Function.update_same, Option.some.injEq] at hev
      rw [← hev]
    · exact h.keyed k ev (by simpa [Function.update_noteq hkk] using hev)
  · simpa [Function.update_noteq hkey.symm] using h.noBlank
  · by_cases hkk : k = key
    · subst hkk
      simp only [Function.update_same, Option.some.injEq, exists_eq_left', Bool.false_eq_true, false_and,
        iff_false]
      exact fun hm => hk (List.mem_map.2 ⟨_, hm, rfl⟩)
    · simpa [Function.update_noteq hkk] using h.charged k a

end Ledger

/-! ## The routes -/

section Routes

variable [Zero F] [LE F] [∀ a b : F, Decidable (a ≤ b)]

/-- `handleCreatePending`; `suffix` is what `newKey` draws. -/
def handleCreatePending (method : String) (body : Option (PendingRequest F)) (suffix : String)
    (s : MemoryStore F) : Reply × MemoryStore F :=
  postOnly method s <|
    match body with
    | none => (.error 400 "invalid json", s)
    | some req =>
      if req.amount ≤ 0 then (.error 400 "amount must be positive", s)
      else
        let key := if req.idempotencyKey = "" then newKey "pending" suffix else req.idempotencyKey
        let r := s.ensurePending key req.amount req.apiCall
        (.json 200 [("idempotencyKey", r.1.idempotencyKey), ("status", "pending")], r.2)

theorem handleCreatePending_cases (method : String) (body : Option (PendingRequest F)) (suffix : String)
    (s : MemoryStore F) :
    (handleCreatePending method body suffix s).2 = s ∨ (handleCreatePending method body suffix s).1.status = 200 ∧
      ∃ k a c, k ≠ "" ∧ (handleCreatePending method body suffix s).2 = (s.ensurePending k a c).2 := by
  unfold handleCreatePending postOnly
  by_cases h₁ : method = "OPTIONS"
  · rw [if_pos h₁]; exact .inl rfl
  by_cases h₂ : method ≠ "POST"
  · rw [if_neg h₁, if_pos h₂]; exact .inl rfl
  rw [if_neg h₁, if_neg h₂]
  rcases body with _ | req
  · exact .inl rfl
  dsimp only
  by_cases h₃ : req.amount ≤ 0
  · rw [if_pos h₃]; exact .inl rfl
  rw [if_neg h₃]
  refine .inr ⟨rfl, _, _, _, ?_, rfl⟩
  split_ifs with hk
  · exact newKey_ne_empty _ _
  · exact hk

variable [Add F]

/-- `memoryStore.markDeducted`: a missing event is created empty and charged at once; a charged one is
returned as it is. -/
def MemoryStore.markDeducted (s : MemoryStore F) (key : String) (amount : F) (apiCall : String) :
    Except String (BillingEvent F × MemoryStore F) :=
  if key = "" then .error "idempotencyKey 不能为空"
  else if amount ≤ 0 then .error "amount 必须为正数"
  else
    let ev := (s.events key).getD ⟨key, 0, "", false, false⟩
    if ev.deducted then .ok (ev, s)
    else
      let ev' := { ev with amount := amount, apiCall := if apiCall ≠ "" then apiCall else ev.apiCall,
                           confirmed := true, deducted := true }
      .ok (ev', { s with events := Function.update s.events key (some ev'),
                         totalDeducted := s.totalDeducted + amount })

/-- **`markDeducted` succeeds only on a nonempty key and a positive amount**, and then either returns the
charged event unchanged or charges the event it finds, or a new empty one, and adds the amount. -/
theorem markDeducted_ok {s s' : MemoryStore F} {key : String} {amount : F} {apiCall : String}
    {ev : BillingEvent F} (h : s.markDeducted key amount apiCall = .ok (ev, s')) :
    key ≠ "" ∧ ¬amount ≤ 0 ∧
      ((s.events key = some ev ∧ ev.deducted = true ∧ s' = s) ∨
        ((s.events key).getD ⟨key, 0, "", false, false⟩).deducted = false ∧
        ev.idempotencyKey = ((s.events key).getD ⟨key, 0, "", false, false⟩).idempotencyKey ∧
        ev.amount = amount ∧ ev.deducted = true ∧
        s' = { s with events := Function.update s.events key (some ev),
                      totalDeducted := s.totalDeducted + amount }) := by
  dsimp only [MemoryStore.markDeducted] at h
  by_cases h₁ : key = ""
  · rw [if_pos h₁] at h; cases h
  by_cases h₂ : amount ≤ 0
  · rw [if_neg h₁, if_pos h₂] at h; cases h
  rw [if_neg h₁, if_neg h₂] at h
  refine ⟨h₁, h₂, ?_⟩
  by_cases h₃ : ((s.events key).getD ⟨key, 0, "", false, false⟩).deducted = true
  · rw [if_pos h₃] at h
    cases h
    refine .inl ⟨?_, h₃, rfl⟩
    cases he : s.events key
    · simp [he] at h₃
    · simp [he]
  · rw [if_neg h₃] at h
    cases h
    exact .inr ⟨by simpa using h₃, rfl, rfl, rfl, rfl⟩

/-- `handleDeduct`. -/
def handleDeduct (txt : AmountText F) (method : String) (body : Option (DeductRequest F))
    (s : MemoryStore F) : Reply × MemoryStore F :=
  postOnly method s <|
    match body with
    | none => (.error 400 "invalid json", s)
    | some req =>
      match s.markDeducted req.idempotencyKey req.amount req.apiCall with
      | .error e => (.error 400 e, s)
      | .ok (ev, s') =>
        (.json 200 [("idempotencyKey", ev.idempotencyKey), ("deducted", toString ev.deducted),
          ("amount", txt.json ev.amount)], s')

theorem handleDeduct_cases (txt : AmountText F) (method : String) (body : Option (DeductRequest F))
    (s : MemoryStore F) :
    (handleDeduct txt method body s).2 = s ∨ (handleDeduct txt method body s).1.status = 200 ∧
      ∃ k a c ev, s.markDeducted k a c = .ok (ev, (handleDeduct txt method body s).2) := by
  unfold handleDeduct postOnly
  by_cases h₁ : method = "OPTIONS"
  · rw [if_pos h₁]; exact .inl rfl
  by_cases h₂ : method ≠ "POST"
  · rw [if_neg h₁, if_pos h₂]; exact .inl rfl
  rw [if_neg h₁, if_neg h₂]
  rcases body with _ | req
  · exact .inl rfl
  dsimp only
  split
  · exact .inl rfl
  · rename_i ev s' hm
    exact .inr ⟨rfl, _, _, _, ev, hm⟩

variable {s : MemoryStore F} {log : List (String × F)}

/-- **A charge extends the ledger by its key and amount; a replay leaves it.** -/
theorem Ledger.markDeducted (h : Ledger s log) {s' : MemoryStore F} {key : String} {amount : F}
    {apiCall : String} {ev : BillingEvent F} (hm : s.markDeducted key amount apiCall = .ok (ev, s')) :
    Ledger s' log ∨ Ledger s' (log ++ [(key, amount)]) := by
  obtain ⟨hkey, -, ⟨-, -, rfl⟩ | ⟨hd, hid, ha, hded, rfl⟩⟩ := markDeducted_ok hm
  · exact .inl h
  right
  have hk : key ∉ log.map Prod.fst := h.not_mem fun e he => by simpa [he] using hd
  have hevk : ev.idempotencyKey = key := by
    rw [hid]
    cases he : s.events key with
    | none => rfl
    | some e => exact h.keyed key e he
  refine ⟨fun k e he => ?_, ?_, ?_, fun k a => ?_, ?_⟩
  · by_cases hkk : k = key
    · subst hkk
      simp only [Function.update_same, Option.some.injEq] at he
      rw [← he, hevk]
    · exact h.keyed k e (by simpa [Function.update_noteq hkk] using he)
  · simpa [Function.update_noteq hkey.symm] using h.noBlank
  · rw [List.map_append, List.nodup_append]
    exact ⟨h.once, List.nodup_singleton _, List.disjoint_singleton.2 hk⟩
  · by_cases hkk : k = key
    · subst hkk
      have hlog : (k, a) ∉ log := fun hm => hk (List.mem_map.2 ⟨_, hm, rfl⟩)
      simp [hlog, hded, ha, @eq_comm _ a]
    · simpa [Function.update_noteq hkk, hkk] using h.charged k a
  · rw [List.map_append, List.foldl_append, ← h.total]
    rfl

variable [Sub F] [Max F]

/-- `memoryStore.balance`. -/
def MemoryStore.balance (s : MemoryStore F) : F :=
  max 0 (s.baseBalance - s.totalDeducted)

/-- `handleProfile`. -/
def handleProfile (txt : AmountText F) (method : String) (s : MemoryStore F) : Reply :=
  if method ≠ "GET" then .error 405 "method not allowed"
  else .json 200 [("user_id", "demo-user"), ("balance", txt.twoDecimals s.balance)]

/-- The billing routes behind `corsMiddleware`, which answers every `OPTIONS` request `204` itself. -/
def serve (txt : AmountText F) (r : BillingRequest F) (s : MemoryStore F) :
    Reply × MemoryStore F :=
  if r.method = "OPTIONS" then (.bare 204, s)
  else
    match r with
    | .profile m => (handleProfile txt m s, s)
    | .createPending m body suffix => handleCreatePending m body suffix s
    | .deduct m body => handleDeduct txt m body s

/-- The store after a sequence of requests, each served against the store the one before left. -/
def runBilling (txt : AmountText F) (rs : List (BillingRequest F)) (s : MemoryStore F) :
    MemoryStore F :=
  rs.foldl (fun s r => (serve txt r s).2) s

/-- **What one request can do to the store**: nothing, a pending event, or a charge — and only the last
two are answered `200`. -/
theorem serve_cases (txt : AmountText F) (r : BillingRequest F) (s : MemoryStore F) :
    (serve txt r s).2 = s ∨ (serve txt r s).1.status = 200 ∧
      ((∃ k a c, k ≠ "" ∧ (serve txt r s).2 = (s.ensurePending k a c).2) ∨
        ∃ k a c ev, s.markDeducted k a c = .ok (ev, (serve txt r s).2)) := by
  unfold serve
  split_ifs
  · exact .inl rfl
  cases r with
  | profile m => exact .inl rfl
  | createPending m body suffix =>
    exact (handleCreatePending_cases m body suffix s).imp_right fun h => ⟨h.1, .inl h.2⟩
  | deduct m body => exact (handleDeduct_cases txt m body s).imp_right fun h => ⟨h.1, .inr h.2⟩

/-- **A refused request leaves the store as it was.** -/
theorem serve_unchanged_of_status {txt : AmountText F} {r : BillingRequest F} {s : MemoryStore F}
    (h : (serve txt r s).1.status ≠ 200) : (serve txt r s).2 = s :=
  (serve_cases txt r s).resolve_right fun h' => h h'.1

theorem serve_baseBalance (txt : AmountText F) (r : BillingRequest F) (s : MemoryStore F) :
    (serve txt r s).2.baseBalance = s.baseBalance := by
  rcases serve_cases txt r s with he | ⟨-, ⟨k, a, c, -, he⟩ | ⟨k, a, c, ev, hm⟩⟩
  · rw [he]
  · rw [he, ensurePending_baseBalance]
  · obtain ⟨-, -, ⟨-, -, he⟩ | ⟨-, -, -, -, he⟩⟩ := markDeducted_ok hm <;> rw [he]

theorem runBilling_baseBalance (txt : AmountText F) (rs : List (BillingRequest F)) (s : MemoryStore F) :
    (runBilling txt rs s).baseBalance = s.baseBalance := by
  induction rs generalizing s with
  | nil => rfl
  | cons r rs ih => exact (ih _).trans (serve_baseBalance txt r s)

theorem Ledger.step (h : Ledger s log) (txt : AmountText F) (r : BillingRequest F) :
    ∃ log', Ledger (serve txt r s).2 log' := by
  rcases serve_cases txt r s with he | ⟨-, ⟨k, a, c, hk, he⟩ | ⟨k, a, c, ev, hm⟩⟩
  · exact ⟨log, by rw [he]; exact h⟩
  · exact ⟨log, by rw [he]; exact h.ensurePending hk a c⟩
  · rcases h.markDeducted hm with h' | h'
    · exact ⟨_, h'⟩
    · exact ⟨_, h'⟩

theorem Ledger.run (h : Ledger s log) (txt : AmountText F) (rs : List (BillingRequest F)) :
    ∃ log', Ledger (runBilling txt rs s) log' := by
  induction rs generalizing s log with
  | nil => exact ⟨log, h⟩
  | cons r rs ih =>
    obtain ⟨log', h'⟩ := h.step txt r
    exact ih h'

/-- **Each key is charged at most once, and the balance is what the charges leave.** After any sequence of
billing requests there is a list of charges, one per charged key with its event's amount, whose sum in
that order is the store's total, and `GET /profile` reports `max 0 (100 - sum)`. -/
theorem billing_charges_once [OfNat F 100] (txt : AmountText F) (rs : List (BillingRequest F)) :
    ∃ log, Ledger (runBilling txt rs newMemoryStore) log ∧
      handleProfile txt "GET" (runBilling txt rs newMemoryStore) =
        .json 200 [("user_id", "demo-user"),
          ("balance", txt.twoDecimals (max 0 (100 - (log.map Prod.snd).foldl (· + ·) 0)))] := by
  obtain ⟨log, h⟩ := Ledger.init.run txt rs
  refine ⟨log, h, ?_⟩
  rw [handleProfile, if_neg (by decide), MemoryStore.balance, runBilling_baseBalance, h.total]
  rfl

/-- A request keeps a charged event. -/
theorem serve_keeps_charged (txt : AmountText F) (r : BillingRequest F) {s : MemoryStore F} {k : String}
    {ev : BillingEvent F} (hk : s.events k = some ev) (hd : ev.deducted = true) :
    (serve txt r s).2.events k = some ev := by
  rcases serve_cases txt r s with he | ⟨-, ⟨k', a, c, -, he⟩ | ⟨k', a, c, ev', hm⟩⟩
  · rw [he, hk]
  · rw [he]
    rcases ensurePending_cases s k' a c with ⟨_, -, he'⟩ | ⟨hn, he'⟩
    · rw [he', hk]
    · have hne : k ≠ k' := by rintro rfl; simp [hn] at hk
      simp [he', Function.update_noteq hne, hk]
  · obtain ⟨-, -, ⟨-, -, he⟩ | ⟨hd', -, -, -, he⟩⟩ := markDeducted_ok hm <;> rw [he]
    · exact hk
    · have hne : k ≠ k' := by rintro rfl; simp [hk, hd] at hd'
      simp [Function.update_noteq hne, hk]

/-- **A charge is final**: once an event is charged, no sequence of requests changes it. -/
theorem charged_event_final (txt : AmountText F) (rs : List (BillingRequest F)) {s : MemoryStore F}
    {k : String} {ev : BillingEvent F} (hk : s.events k = some ev) (hd : ev.deducted = true) :
    (runBilling txt rs s).events k = some ev := by
  induction rs generalizing s with
  | nil => exact hk
  | cons r rs ih => exact ih (serve_keeps_charged txt r hk hd)

/-- What the billing replies are written with in the witnesses below. -/
def sampleAmount : AmountText Int := ⟨toString, toString⟩

theorem charged_event_final_replay :
    (runBilling sampleAmount [.deduct "POST" (some ⟨"k1", 9, ""⟩)]
      (runBilling sampleAmount [.deduct "POST" (some ⟨"k1", 5, "api"⟩)] newMemoryStore)).events "k1" =
      some ⟨"k1", 5, "api", true, true⟩ :=
  charged_event_final sampleAmount _ (by decide) rfl

omit [Sub F] [Max F] in
theorem markDeducted_charged {s : MemoryStore F} {key : String} {ev : BillingEvent F}
    (hk : s.events key = some ev) (hd : ev.deducted = true) (hkey : key ≠ "") {amount : F} (ha : ¬amount ≤ 0)
    (apiCall : String) : s.markDeducted key amount apiCall = .ok (ev, s) := by
  simp [MemoryStore.markDeducted, hkey, ha, hk, hd]

/-- **A request that names a charged key changes nothing**: a deduction is answered `200` with the first
charge's amount, whatever amount it asks for, and a pending request is answered `pending`. -/
theorem replays_on_charged_key [OfNat F 100] (txt : AmountText F) (rs : List (BillingRequest F)) {k : String}
    {ev : BillingEvent F} (hk : (runBilling txt rs newMemoryStore).events k = some ev) (hd : ev.deducted = true)
    {a : F} (ha : ¬a ≤ 0) (c suffix : String) :
    serve txt (.deduct "POST" (some ⟨k, a, c⟩)) (runBilling txt rs newMemoryStore) =
        (.json 200 [("idempotencyKey", k), ("deducted", "true"), ("amount", txt.json ev.amount)],
          runBilling txt rs newMemoryStore) ∧
      serve txt (.createPending "POST" (some ⟨a, c, k⟩) suffix) (runBilling txt rs newMemoryStore) =
        (.json 200 [("idempotencyKey", k), ("status", "pending")], runBilling txt rs newMemoryStore) := by
  obtain ⟨log, h⟩ := Ledger.init.run txt rs
  generalize runBilling txt rs newMemoryStore = s at h hk ⊢
  have hkey : k ≠ "" := by rintro rfl; simp [h.noBlank] at hk
  have hid := h.keyed k ev hk
  have htrue : toString true = "true" := rfl
  constructor
  · simp [serve, BillingRequest.method, handleDeduct, postOnly, markDeducted_charged hk hd hkey ha, hid, hd, htrue]
  · simp [serve, BillingRequest.method, handleCreatePending, postOnly, ha, hkey, MemoryStore.ensurePending, hk,
      hid]

theorem replays_on_charged_key_k1 :
    serve sampleAmount (.deduct "POST" (some ⟨"k1", 7, ""⟩))
        (runBilling sampleAmount [.deduct "POST" (some ⟨"k1", 5, "api"⟩)] newMemoryStore) =
        (.json 200 [("idempotencyKey", "k1"), ("deducted", "true"), ("amount", sampleAmount.json 5)],
          runBilling sampleAmount [.deduct "POST" (some ⟨"k1", 5, "api"⟩)] newMemoryStore) ∧
      serve sampleAmount (.createPending "POST" (some ⟨7, "", "k1"⟩) "r")
        (runBilling sampleAmount [.deduct "POST" (some ⟨"k1", 5, "api"⟩)] newMemoryStore) =
        (.json 200 [("idempotencyKey", "k1"), ("status", "pending")],
          runBilling sampleAmount [.deduct "POST" (some ⟨"k1", 5, "api"⟩)] newMemoryStore) := by
  have hk : (runBilling sampleAmount [.deduct "POST" (some ⟨"k1", 5, "api"⟩)] newMemoryStore).events "k1" =
      some ⟨"k1", 5, "api", true, true⟩ := by decide
  exact replays_on_charged_key sampleAmount _ hk rfl (by decide) "" "r"

end Routes

end Billing
end Guangyang
