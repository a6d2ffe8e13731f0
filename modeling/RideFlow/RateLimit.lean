import Mathlib.Algebra.Order.Floor.Ring
import Mathlib.Data.Rat.Floor
import Mathlib.Tactic.Linarith
import RideFlow.Library.Quotas
import RideFlow.Library.Runs
import RideFlow.Models

/-!
# The rate limiter

`RateLimitMiddleware.dispatch` of `rate_limit.py` over the counters that it keeps
in Redis.  A request takes its window, its INCR and its EXPIRE at one instant; an
EXPIRE may be lost.  Requests come one after the other, and a counter goes when
its time has come, whether somebody looks at it or not.

The limiter is a quota of `limit` requests for each address and minute
(`limiter_keeps_quota`): the key of a window is no other's (`rateLimitKey_inj`), and
it is set to expire sixty seconds after a request of that window, so not before
the window ends.
-/

namespace RideFlow

open Quotas Runs

/-- What `dispatch` looks at: `request.url.path`, `request.client.host` if there
is a client, and `time.time()`. -/
structure HttpRequest where
  path : String
  client : Option String
  time : ℚ
  deriving DecidableEq

/-- The requests that are not counted. -/
def HttpRequest.isHealth (request : HttpRequest) : Bool := request.path.startsWith "/health"

/-- `client_ip`. -/
def HttpRequest.clientIp (request : HttpRequest) : String := request.client.getD "unknown"

/-- `int(time.time() // 60)`. -/
def HttpRequest.window (request : HttpRequest) : Int := ⌊request.time / 60⌋

/-- The key of an address and a window. -/
def rateLimitKey (clientIp : String) (window : Int) : String :=
  "ratelimit:" ++ clientIp ++ ":" ++ toString window

/-- The key of the request's counter. -/
def HttpRequest.key (request : HttpRequest) : String :=
  rateLimitKey request.clientIp request.window

/-- What the middleware does with a request. -/
inductive LimiterAnswer
  | passed
  | refused (error : Rejection) (retryAfter : String)
  deriving DecidableEq

/-- The 429. -/
def tooManyRequests : LimiterAnswer :=
  .refused ⟨429, "Rate limit exceeded. Try again shortly."⟩ "60"

/-- One request; `limit` is `rate_limit_per_minute`. -/
def dispatch (limit : Nat) (redis : Counters String ℚ) (request : HttpRequest)
    (expireLost : Bool) : LimiterAnswer × Counters String ℚ :=
  if request.isHealth then (.passed, redis)
  else
    let (current, redis) := redis.incr request.key
    let redis :=
      if current = 1 ∧ !expireLost then redis.expire request.key (request.time + 60) else redis
    if current > limit then (tooManyRequests, redis) else (.passed, redis)

/-- The counters, the time of the last request, and what was answered. -/
structure LimiterState where
  redis : Counters String ℚ
  now : ℚ
  answers : List (HttpRequest × LimiterAnswer)

/-- No counter, and no request. -/
def LimiterState.start (now : ℚ) : LimiterState := ⟨fun _ => none, now, []⟩

/-- A request that arrives, and whether its EXPIRE is lost. -/
structure Arrival where
  request : HttpRequest
  expireLost : Bool

/-- A request that does not come before the last one. -/
def limiterStep (limit : Nat) (s : LimiterState) (a : Arrival) : Option LimiterState :=
  if s.now ≤ a.request.time then
    let (answer, redis) := dispatch limit (s.redis.at_ a.request.time) a.request a.expireLost
    some ⟨redis, a.request.time, s.answers ++ [(a.request, answer)]⟩
  else none

/-- Requests that arrive one after the other. -/
def limiterSystem (limit : Nat) : System LimiterState Arrival := ⟨limiterStep limit⟩

/-- A request arrives no earlier than the one before it, and is dispatched. -/
theorem limiter_step {limit : Nat} {s t : LimiterState} {a : Arrival}
    (h : limiterStep limit s a = some t) :
    s.now ≤ a.request.time ∧ ∃ answer redis,
      dispatch limit (s.redis.at_ a.request.time) a.request a.expireLost = (answer, redis) ∧
      t = ⟨redis, a.request.time, s.answers ++ [(a.request, answer)]⟩ := by
  obtain ⟨hnow, hnext⟩ := Option.ite_none_right_eq_some.mp h
  exact ⟨hnow, _, _, rfl, (Option.some.inj hnext).symm⟩

section Keys

/-- A decimal number is written with digits only. -/
theorem isDigit_of_mem_repr {n : Nat} {c : Char} (h : c ∈ n.repr.toList) : c.isDigit = true := by
  rw [Nat.toList_repr] at h
  exact Nat.isDigit_of_mem_toDigits (by decide) (by decide) h

/-- Different numbers are written differently. -/
theorem repr_inj {m n : Nat} (h : m.repr = n.repr) : m = n := by
  have hdigits : Nat.toDigits 10 m = Nat.toDigits 10 n := by
    rw [← Nat.toList_repr, h, Nat.toList_repr]
  rw [← Nat.ofDigitChars_ten_toDigits (n := m), hdigits, Nat.ofDigitChars_ten_toDigits]

/-- A negative number is written with a minus sign. -/
theorem toString_negSucc (n : Nat) :
    (toString (Int.negSucc n)).toList = '-' :: (n + 1).repr.toList := by
  change ("-" ++ (n + 1).repr).toList = _
  rw [String.toList_append]
  rfl

/-- A window is written without a colon. -/
theorem colon_notMem_toString (w : Int) : ':' ∉ (toString w).toList := by
  have hdigits : ∀ n : Nat, ':' ∉ n.repr.toList := fun n hmem =>
    absurd (isDigit_of_mem_repr hmem) (by decide)
  cases w with
  | ofNat n => exact hdigits n
  | negSucc n =>
      rw [toString_negSucc, List.mem_cons, not_or]
      exact ⟨by decide, hdigits (n + 1)⟩

/-- A number that is not negative is written without a sign. -/
theorem unsigned_ne_signed (m n : Nat) : m.repr.toList ≠ '-' :: n.repr.toList := by
  intro h
  have hsign : '-' ∈ m.repr.toList := h ▸ List.mem_cons_self
  exact absurd (isDigit_of_mem_repr hsign) (by decide)

/-- Different windows are written differently. -/
theorem toString_inj {w w' : Int} (h : (toString w).toList = (toString w').toList) : w = w' := by
  cases w with
  | ofNat m =>
      cases w' with
      | ofNat n => exact congrArg Int.ofNat (repr_inj (String.toList_injective h))
      | negSucc n =>
          rw [toString_negSucc] at h
          exact absurd h (unsigned_ne_signed m (n + 1))
  | negSucc m =>
      rw [toString_negSucc] at h
      cases w' with
      | ofNat n => exact absurd h.symm (unsigned_ne_signed n (m + 1))
      | negSucc n =>
          rw [toString_negSucc, List.cons_inj_right] at h
          have hsame : m + 1 = n + 1 := repr_inj (String.toList_injective h)
          rw [Nat.succ_injective hsame]

/-- What stands after the last colon can be told from what stands before it. -/
theorem split_at_colon {front front' back back' : List Char} (hback : ':' ∉ back)
    (hback' : ':' ∉ back') (h : front ++ ':' :: back = front' ++ ':' :: back') :
    front = front' ∧ back = back' := by
  rcases List.append_eq_append_iff.mp h with ⟨middle, hfront, hrest⟩ | ⟨middle, hfront, hrest⟩
  · cases middle with
    | nil => exact ⟨by simpa using hfront.symm, by simpa using hrest⟩
    | cons c middle =>
        obtain ⟨_, rfl⟩ := List.cons.inj hrest
        exact absurd (List.mem_append_right middle List.mem_cons_self) hback
  · cases middle with
    | nil => exact ⟨by simpa using hfront, by simpa using hrest.symm⟩
    | cons c middle =>
        obtain ⟨_, rfl⟩ := List.cons.inj hrest
        exact absurd (List.mem_append_right middle List.mem_cons_self) hback'

/-- **Different addresses and windows have different keys.** -/
theorem rateLimitKey_inj {ip ip' : String} {w w' : Int}
    (h : rateLimitKey ip w = rateLimitKey ip' w') : ip = ip' ∧ w = w' := by
  have hlists := congrArg String.toList h
  simp only [rateLimitKey, String.toList_append, List.append_assoc,
    List.append_cancel_left_eq] at hlists
  have hcolon : ":".toList = [':'] := rfl
  rw [hcolon, List.singleton_append, List.singleton_append] at hlists
  obtain ⟨hip, hw⟩ :=
    split_at_colon (colon_notMem_toString w) (colon_notMem_toString w') hlists
  exact ⟨String.toList_injective hip, toString_inj hw⟩

end Keys

/-- The address and the minute of a request. -/
def HttpRequest.bucket (request : HttpRequest) : String × Int :=
  (request.clientIp, request.window)

/-- The requests that are counted. -/
def counted (requests : List HttpRequest) : List HttpRequest :=
  requests.filter fun request => !request.isHealth

/-- The answer for a request that is within its quota or not. -/
def verdict (granted : Bool) : LimiterAnswer := if granted then .passed else tooManyRequests

/-- The answers that the quota gives: the first `limit` requests of an address in
a minute pass, the others are refused. -/
def verdicts (limit : Nat) (requests : List HttpRequest) : List (HttpRequest × LimiterAnswer) :=
  (grant HttpRequest.bucket limit requests).map fun o => (o.1, verdict o.2)

/-- The verdict on the last request depends on the load of its bucket. -/
theorem verdicts_snoc (limit : Nat) (requests : List HttpRequest) (request : HttpRequest) :
    verdicts limit (requests ++ [request]) = verdicts limit requests ++
      [(request, verdict (load HttpRequest.bucket requests request.bucket < limit))] := by
  simp [verdicts, grant_snoc]

section Dispatch

variable {limit : Nat} {before : List HttpRequest} {redis : Counters String ℚ}
  {request : HttpRequest} {expireLost : Bool}

/-- Two requests share a counter when they share an address and a minute. -/
theorem key_eq_iff (r r' : HttpRequest) : r.key = r'.key ↔ r.bucket = r'.bucket := by
  constructor
  · intro h
    obtain ⟨hip, hwindow⟩ := rateLimitKey_inj h
    exact Prod.ext hip hwindow
  · intro h
    obtain ⟨hip, hwindow⟩ := Prod.mk.inj h
    rw [HttpRequest.key, HttpRequest.key, hip, hwindow]

/-- The load of a counter is that of the bucket. -/
theorem load_key (r : HttpRequest) :
    load HttpRequest.key before r.key = load HttpRequest.bucket before r.bucket :=
  List.countP_congr fun e _ => by simp [key_eq_iff]

/-- A window ends within sixty seconds of any of its requests. -/
theorem window_ends {r r' : HttpRequest} (h : r.window = r'.window) : r.time < r'.time + 60 := by
  have hup : r.time / 60 < (⌊r.time / 60⌋ : ℚ) + 1 := Int.lt_floor_add_one _
  have hdown : (⌊r'.time / 60⌋ : ℚ) ≤ r'.time / 60 := Int.floor_le _
  have hsame : (⌊r.time / 60⌋ : ℚ) = (⌊r'.time / 60⌋ : ℚ) := congrArg Int.cast h
  linarith

/-- A health request passes and is not counted. -/
theorem dispatch_health (hhealth : request.isHealth = true) :
    dispatch limit redis request expireLost = (.passed, redis) := by
  simp [dispatch, hhealth]

/-- **One counted request.**  It passes exactly when fewer than `limit` of its
bucket came before, and the counters go on counting, whether the EXPIRE is lost
or not. -/
theorem dispatch_counted (h : Counts HttpRequest.key HttpRequest.time before request.time redis)
    (hcounted : request.isHealth = false) :
    (dispatch limit redis request expireLost).1 =
      verdict (load HttpRequest.bucket before request.bucket < limit) ∧
    Counts HttpRequest.key HttpRequest.time (before ++ [request]) request.time
      (dispatch limit redis request expireLost).2 := by
  have hcurrent : (redis.incr request.key).1 =
      load HttpRequest.bucket before request.bucket + 1 := by
    rw [h.incr_fst le_rfl, load_key]
  have hincr := h.incr_snd (le_refl request.time)
  have hexpired : Counts HttpRequest.key HttpRequest.time (before ++ [request]) request.time
      ((redis.incr request.key).2.expire request.key (request.time + 60)) := by
    refine hincr.expire fun r _ hkey => ?_
    exact window_ends (rateLimitKey_inj hkey).2
  have hredis : Counts HttpRequest.key HttpRequest.time (before ++ [request]) request.time
      (if (redis.incr request.key).1 = 1 ∧ !expireLost then
        (redis.incr request.key).2.expire request.key (request.time + 60)
      else (redis.incr request.key).2) := by
    split
    case isTrue => exact hexpired
    case isFalse => exact hincr
  constructor
  · by_cases hload : load HttpRequest.bucket before request.bucket < limit
    · simp [dispatch, hcounted, hcurrent, verdict, hload, Nat.not_lt.mpr hload]
    · have hover : limit < load HttpRequest.bucket before request.bucket + 1 :=
        Nat.lt_succ_of_le (Nat.le_of_not_lt hload)
      simp [dispatch, hcounted, hcurrent, verdict, hload, hover]
  · simp only [dispatch, hcounted, Bool.false_eq_true, if_false]
    split
    case isTrue => exact hredis
    case isFalse => exact hredis

end Dispatch

/-- The answers that are an address's. -/
def HttpRequest.countsFor (ip : String) (request : HttpRequest) : Bool :=
  !request.isHealth && request.clientIp = ip

/-- The counted requests of an address. -/
theorem countsFor_iff {ip : String} {r : HttpRequest} :
    r.countsFor ip = true ↔ r.isHealth = false ∧ r.clientIp = ip := by
  simp [HttpRequest.countsFor]

/-- The bucket of a request is its address and its minute. -/
theorem bucket_iff {ip : String} {window : Int} {r : HttpRequest} :
    r.bucket = (ip, window) ↔ r.clientIp = ip ∧ r.window = window := by
  rw [HttpRequest.bucket, Prod.mk.injEq]

/-- Within a minute after `start`, its ends included. -/
def HttpRequest.within (start : ℚ) (request : HttpRequest) : Bool :=
  start ≤ request.time ∧ request.time ≤ start + 60

/-- What the limiter is for. -/
structure QuotaKept (limit : Nat) (requests : List HttpRequest)
    (answers : List (HttpRequest × LimiterAnswer)) : Prop where
  listed : answers.map Prod.fst = requests
  health : ∀ o ∈ answers, o.1.isHealth = true → o.2 = .passed
  /-- Counted requests are answered as the quota says. -/
  verdicts : answers.filter (fun o => !o.1.isHealth) = verdicts limit (counted requests)
  /-- Of the requests of an address in a minute, `min n limit` pass. -/
  bucket : ∀ ip window,
    (answers.countP fun o => o.1.countsFor ip ∧ o.1.window = window ∧ o.2 = .passed) =
      min (requests.countP fun r => r.countsFor ip ∧ r.window = window) limit
  /-- In any sixty seconds at most `2 * limit` of an address do. -/
  minute : ∀ ip start,
    (answers.countP fun o => o.1.countsFor ip ∧ o.1.within start ∧ o.2 = .passed) ≤ 2 * limit
  /-- The answers to an address are what they were without the other ones. -/
  apart : ∀ ip, answers.filter (fun o => o.1.countsFor ip) =
    RideFlow.verdicts limit (requests.filter fun r => r.countsFor ip)

section Runs

variable {limit : Nat} {now : ℚ} {arrivals : List Arrival} {s : LimiterState}

/-- The answers so far, and counters that have counted. -/
structure LimiterBooks (limit : Nat) (requests : List HttpRequest) (s : LimiterState) : Prop where
  listed : s.answers.map Prod.fst = requests
  health : ∀ o ∈ s.answers, o.1.isHealth = true → o.2 = .passed
  verdicts : s.answers.filter (fun o => !o.1.isHealth) = verdicts limit (counted requests)
  counts : Counts HttpRequest.key HttpRequest.time (counted requests) s.now s.redis

/-- One request keeps the books. -/
theorem step_limiterBooks {requests : List HttpRequest} {t : LimiterState} {a : Arrival}
    (h : LimiterBooks limit requests s) (hstep : limiterStep limit s a = some t) :
    LimiterBooks limit (requests ++ [a.request]) t := by
  obtain ⟨hnow, answer, redis, hdispatch, rfl⟩ := limiter_step hstep
  have hcounts := h.counts.later hnow
  cases hhealth : a.request.isHealth with
  | true =>
      have hnone : counted (requests ++ [a.request]) = counted requests := by
        simp [counted, List.filter_append, hhealth]
      rw [dispatch_health hhealth] at hdispatch
      obtain ⟨rfl, rfl⟩ := Prod.mk.inj hdispatch
      constructor
      · simp [h.listed]
      · intro o ho hpath
        rcases List.mem_append.mp ho with hold | hnew
        · exact h.health o hold hpath
        · obtain rfl := List.mem_singleton.mp hnew
          rfl
      · rw [hnone, ← h.verdicts]
        simp [List.filter_append, hhealth]
      · rw [hnone]
        exact hcounts
  | false =>
      have hone : counted (requests ++ [a.request]) = counted requests ++ [a.request] := by
        simp [counted, List.filter_append, hhealth]
      have hcounted : (dispatch limit (s.redis.at_ a.request.time) a.request a.expireLost).1 =
            verdict (load HttpRequest.bucket (counted requests) a.request.bucket < limit) ∧
          Counts HttpRequest.key HttpRequest.time (counted requests ++ [a.request])
            a.request.time
            (dispatch limit (s.redis.at_ a.request.time) a.request a.expireLost).2 :=
        dispatch_counted hcounts hhealth
      rw [hdispatch] at hcounted
      obtain ⟨rfl, hafter⟩ := hcounted
      constructor
      · simp [h.listed]
      · intro o ho hpath
        rcases List.mem_append.mp ho with hold | hnew
        · exact h.health o hold hpath
        · obtain rfl := List.mem_singleton.mp hnew
          rw [hhealth] at hpath
          cases hpath
      · rw [hone, verdicts_snoc, List.filter_append, h.verdicts]
        simp [hhealth]
      · rw [hone]
        exact hafter

/-- No counters have counted nothing. -/
theorem start_limiterBooks : LimiterBooks limit [] (.start now) := by
  refine ⟨rfl, fun o ho => absurd ho List.not_mem_nil, rfl, ?_⟩
  intro r _
  exact ⟨rfl, fun counter end_ h => by cases h⟩

/-- The limiter has answered every request of a run with its verdict. -/
theorem limiter_run (h : Steps (limiterSystem limit) free (.start now) arrivals s) :
    LimiterBooks limit (arrivals.map Arrival.request) s := by
  refine h.history (fun acts u => LimiterBooks limit (acts.map Arrival.request) u)
    start_limiterBooks ?_
  intro acts u a v _ hbooks _ hstep
  rw [List.map_append]
  exact step_limiterBooks hbooks hstep

section Consequences

variable {requests : List HttpRequest}

/-- What passed is what the quota lets through. -/
theorem LimiterBooks.passed (h : LimiterBooks limit requests s) (p : HttpRequest → Prop)
    [DecidablePred p] :
    (s.answers.countP fun o => o.1.isHealth = false ∧ p o.1 ∧ o.2 = .passed) =
      (grant HttpRequest.bucket limit (counted requests)).countP fun o => o.2 ∧ p o.1 := by
  have hfilter : (s.answers.countP fun o => o.1.isHealth = false ∧ p o.1 ∧ o.2 = .passed) =
      (s.answers.filter fun o => !o.1.isHealth).countP fun o => p o.1 ∧ o.2 = .passed := by
    rw [List.countP_filter]
    refine List.countP_congr fun o _ => ?_
    simp only [decide_eq_true_eq, Bool.and_eq_true, Bool.not_eq_true']
    exact and_comm
  rw [hfilter, h.verdicts, RideFlow.verdicts, List.countP_map]
  refine List.countP_congr fun o _ => ?_
  cases hgranted : o.2 with
  | false => simp [verdict, tooManyRequests, hgranted]
  | true => simp [verdict, hgranted]

/-- Of the requests of a bucket the first ones pass, up to the limit. -/
theorem LimiterBooks.bucket (h : LimiterBooks limit requests s) (ip : String) (window : Int) :
    (s.answers.countP fun o => o.1.countsFor ip ∧ o.1.window = window ∧ o.2 = .passed) =
      min (requests.countP fun r => r.countsFor ip ∧ r.window = window) limit := by
  have hpassed := h.passed fun r => r.bucket = (ip, window)
  have hload : load HttpRequest.bucket (counted requests) (ip, window) =
      requests.countP fun r => r.countsFor ip ∧ r.window = window := by
    rw [load, counted, List.countP_filter]
    refine List.countP_congr fun r _ => ?_
    simp only [decide_eq_true_eq, Bool.and_eq_true, Bool.not_eq_true', countsFor_iff, bucket_iff]
    tauto
  rw [← hload, ← granted_eq_min, granted, ← hpassed]
  refine List.countP_congr fun o _ => ?_
  simp only [decide_eq_true_eq, countsFor_iff, bucket_iff]
  tauto

/-- Sixty seconds meet two windows. -/
theorem window_of_within {start : ℚ} {r : HttpRequest} (h : r.within start = true) :
    r.window = ⌊start / 60⌋ ∨ r.window = ⌊start / 60⌋ + 1 := by
  obtain ⟨hfrom, hto⟩ := of_decide_eq_true h
  have hlow : ⌊start / 60⌋ ≤ r.window := by
    apply Int.floor_le_floor
    linarith
  have hhigh : r.window ≤ ⌊start / 60⌋ + 1 := by
    rw [← Int.floor_add_one]
    apply Int.floor_le_floor
    linarith
  omega

/-- In any sixty seconds at most twice the limit pass. -/
theorem LimiterBooks.minute (h : LimiterBooks limit requests s) (ip : String) (start : ℚ) :
    (s.answers.countP fun o => o.1.countsFor ip ∧ o.1.within start ∧ o.2 = .passed) ≤
      2 * limit := by
  let buckets : Finset (String × Int) := {(ip, ⌊start / 60⌋), (ip, ⌊start / 60⌋ + 1)}
  have hfew : buckets.card ≤ 2 := Finset.card_le_two
  have hpassed := h.passed fun r => r.bucket ∈ buckets
  calc (s.answers.countP fun o => o.1.countsFor ip ∧ o.1.within start ∧ o.2 = .passed)
      ≤ s.answers.countP fun o =>
          o.1.isHealth = false ∧ o.1.bucket ∈ buckets ∧ o.2 = .passed := by
        refine List.countP_mono_left fun o _ ho => ?_
        obtain ⟨hcounts, hwithin, hpass⟩ := of_decide_eq_true ho
        obtain ⟨hhealth, hip⟩ := countsFor_iff.mp hcounts
        have hmem : o.1.bucket ∈ buckets := by
          rw [HttpRequest.bucket, hip, Finset.mem_insert, Finset.mem_singleton]
          rcases window_of_within hwithin with hwindow | hwindow
          · exact Or.inl (by rw [hwindow])
          · exact Or.inr (by rw [hwindow])
        exact decide_eq_true ⟨hhealth, hmem, hpass⟩
    _ = (grant HttpRequest.bucket limit (counted requests)).countP fun o =>
          o.2 ∧ o.1.bucket ∈ buckets := hpassed
    _ ≤ buckets.card * limit := granted_in_buckets _ _
    _ ≤ 2 * limit := Nat.mul_le_mul_right limit hfew

/-- What an address is told depends on its own requests alone. -/
theorem LimiterBooks.apart (h : LimiterBooks limit requests s) (ip : String) :
    s.answers.filter (fun o => o.1.countsFor ip) =
      RideFlow.verdicts limit (requests.filter fun r => r.countsFor ip) := by
  have hanswers : s.answers.filter (fun o => o.1.countsFor ip) =
      (s.answers.filter fun o => !o.1.isHealth).filter fun o => o.1.bucket.1 = ip := by
    rw [List.filter_filter]
    refine List.filter_congr fun o _ => ?_
    rw [HttpRequest.countsFor, Bool.and_comm]
    rfl
  have hrequests : (requests.filter fun r => r.countsFor ip) =
      (counted requests).filter fun r => r.bucket.1 = ip := by
    rw [counted, List.filter_filter]
    refine List.filter_congr fun r _ => ?_
    rw [HttpRequest.countsFor, Bool.and_comm]
    rfl
  rw [hanswers, hrequests, h.verdicts, RideFlow.verdicts, List.filter_map, RideFlow.verdicts,
    ← grant_filter fun b : String × Int => decide (b.1 = ip)]
  rfl

end Consequences

/-- **The limiter keeps its quota.**  Over every run, whatever EXPIREs were lost:
of the counted requests of an address in a minute the first `limit` pass, whatever
others send, and in any sixty seconds at most `2 * limit` of an address do. -/
theorem limiter_keeps_quota
    (h : Steps (limiterSystem limit) free (.start now) arrivals s) :
    QuotaKept limit (arrivals.map Arrival.request) s.answers := by
  have hbooks := limiter_run h
  exact ⟨hbooks.listed, hbooks.health, hbooks.verdicts, hbooks.bucket, hbooks.minute,
    hbooks.apart⟩

/-- Two addresses around the end of a minute; the first EXPIRE is lost. -/
def aroundTheMinute : List Arrival :=
  [⟨⟨"/api/v1/rides", some "10.0.0.1", 59⟩, true⟩,
    ⟨⟨"/api/v1/rides", some "10.0.0.1", 59 + 1 / 2⟩, false⟩,
    ⟨⟨"/api/v1/rides", some "fe80::1", 59 + 1 / 2⟩, false⟩,
    ⟨⟨"/api/v1/rides", some "10.0.0.1", 60⟩, false⟩,
    ⟨⟨"/health", some "10.0.0.1", 60⟩, false⟩,
    ⟨⟨"/api/v1/rides", some "10.0.0.1", 119⟩, false⟩]

/-- With a limit of one, requests around the turn of a minute. -/
theorem quota_around_the_minute : ∃ s,
    Steps (limiterSystem 1) free (.start 59) aroundTheMinute s ∧
    s.answers.map Prod.snd =
      [.passed, tooManyRequests, .passed, .passed, .passed, tooManyRequests] ∧
    QuotaKept 1 (aroundTheMinute.map Arrival.request) s.answers := by
  have hreplay : (exec (limiterSystem 1) (.start 59) aroundTheMinute).any
      (fun s => s.answers.map Prod.snd =
        [.passed, tooManyRequests, .passed, .passed, .passed, tooManyRequests]) = true := by
    decide +kernel
  obtain ⟨s, hrun, hs⟩ := Steps.of_exec_any hreplay
  exact ⟨s, hrun, of_decide_eq_true hs, limiter_keeps_quota hrun⟩

end Runs

end RideFlow
