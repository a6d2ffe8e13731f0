import Mathlib.Data.Finset.Card
import Mathlib.Logic.Function.Basic
import Mathlib.Tactic.Common

/-!
# Quotas and counters that expire

A quota lets the first `limit` requests of each bucket through (`grant`).  The
buckets do not see one another (`grant_filter`), and a set of buckets lets through
what its buckets do (`granted_in_buckets`).

A store of counters implements a quota when no counter goes before the last use
of its key: `Counts` says that the counters agree with the requests so far, and
the lemmas below it say what INCR, EXPIRE and the passing of time do to that.
-/

namespace Quotas

section Granting

variable {R B : Type*} [DecidableEq B] (bucket : R → B) (limit : Nat)

/-- How many of these requests are in the bucket. -/
def load (requests : List R) (b : B) : Nat := requests.countP fun r => bucket r = b

/-- Each request with whether it is among the first `limit` of its bucket, when
others came before. -/
def grantAfter (before : List R) : List R → List (R × Bool)
  | [] => []
  | r :: rest =>
      (r, decide (load bucket before (bucket r) < limit)) :: grantAfter (before ++ [r]) rest

/-- The same from the first request on. -/
def grant (requests : List R) : List (R × Bool) := grantAfter bucket limit [] requests

/-- How many requests of the bucket were let through. -/
def granted (requests : List R) (b : B) : Nat :=
  (grant bucket limit requests).countP fun o => o.2 ∧ bucket o.1 = b

variable {bucket limit}

theorem load_snoc (requests : List R) (r : R) (b : B) :
    load bucket (requests ++ [r]) b = load bucket requests b + if bucket r = b then 1 else 0 := by
  simp [load, List.countP_append, List.countP_singleton]

theorem grantAfter_append (before requests more : List R) :
    grantAfter bucket limit before (requests ++ more) =
      grantAfter bucket limit before requests ++
        grantAfter bucket limit (before ++ requests) more := by
  induction requests generalizing before with
  | nil => simp [grantAfter]
  | cons r rest ih => simp [grantAfter, ih]

theorem grant_snoc (requests : List R) (r : R) :
    grant bucket limit (requests ++ [r]) =
      grant bucket limit requests ++
        [(r, decide (load bucket requests (bucket r) < limit))] := by
  simp [grant, grantAfter_append, grantAfter]

theorem granted_snoc (requests : List R) (r : R) (b : B) :
    granted bucket limit (requests ++ [r]) b = granted bucket limit requests b +
      if load bucket requests b < limit ∧ bucket r = b then 1 else 0 := by
  rw [granted, grant_snoc, List.countP_append, List.countP_singleton]
  by_cases hr : bucket r = b
  · subst hr
    simp [granted]
  · simp [granted, hr]

/-- **A bucket lets its first `limit` requests through.** -/
theorem granted_eq_min (requests : List R) (b : B) :
    granted bucket limit requests b = min (load bucket requests b) limit := by
  induction requests using List.reverseRecOn with
  | nil => simp [granted, grant, grantAfter, load]
  | append_singleton requests r ih =>
      rw [granted_snoc, load_snoc, ih]
      by_cases hr : bucket r = b
      · by_cases hload : load bucket requests b < limit
        · simp only [hr, hload, and_self, if_true]
          omega
        · simp only [hr, hload, false_and, if_true, if_false]
          omega
      · simp [hr]

/-- What is counted twice is counted once in one of two ways. -/
theorem countP_le_add {A : Type*} {p q q' : A → Bool} (h : ∀ x, p x = true → q x ∨ q' x)
    (xs : List A) : xs.countP p ≤ xs.countP q + xs.countP q' := by
  induction xs with
  | nil => simp
  | cons x rest ih =>
      have hx := h x
      rw [List.countP_cons, List.countP_cons, List.countP_cons]
      cases hp : p x <;> cases hq : q x <;> cases hq' : q' x <;> simp_all <;> omega

/-- **Several buckets** let through no more than all of theirs. -/
theorem granted_in_buckets (requests : List R) (buckets : Finset B) :
    ((grant bucket limit requests).countP fun o => o.2 ∧ bucket o.1 ∈ buckets) ≤
      buckets.card * limit := by
  induction buckets using Finset.induction_on with
  | empty => simp
  | insert b buckets hnew ih =>
      have hb : granted bucket limit requests b ≤ limit := by
        rw [granted_eq_min]
        exact min_le_right _ _
      have hsplit : ((grant bucket limit requests).countP fun o =>
            o.2 ∧ bucket o.1 ∈ insert b buckets) ≤
          granted bucket limit requests b +
            (grant bucket limit requests).countP fun o => o.2 ∧ bucket o.1 ∈ buckets := by
        refine countP_le_add ?_ _
        intro o ho
        obtain ⟨hgranted, hmem⟩ := of_decide_eq_true ho
        rcases Finset.mem_insert.mp hmem with hhere | hthere
        · exact Or.inl (decide_eq_true ⟨hgranted, hhere⟩)
        · exact Or.inr (decide_eq_true ⟨hgranted, hthere⟩)
      rw [Finset.card_insert_of_notMem hnew, Nat.add_mul, Nat.one_mul]
      omega

/-- **Buckets are apart.**  What is let through of some buckets is what would be
if the others had sent nothing. -/
theorem grant_filter (p : B → Bool) (requests : List R) :
    (grant bucket limit requests).filter (fun o => p (bucket o.1)) =
      grant bucket limit (requests.filter fun r => p (bucket r)) := by
  induction requests using List.reverseRecOn with
  | nil => rfl
  | append_singleton requests r ih =>
      rw [grant_snoc, List.filter_append, ih, List.filter_append]
      cases hr : p (bucket r) with
      | false => simp [hr]
      | true =>
          have hload : load bucket (requests.filter fun r => p (bucket r)) (bucket r) =
              load bucket requests (bucket r) := by
            rw [load, load, List.countP_filter]
            refine List.countP_congr fun e _ => ?_
            simp only [Bool.and_eq_true, decide_eq_true_eq, and_iff_left_iff_imp]
            intro hsame
            rw [hsame, hr]
          simp [hr, grant_snoc, hload]

end Granting

/-- A counter, and the time at which it goes, if it does. -/
structure Counter (T : Type*) where
  count : Nat
  expiresAt : Option T
  deriving DecidableEq, Repr

/-- The counters that there are, by key. -/
abbrev Counters (K T : Type*) := K → Option (Counter T)

section Commands

variable {K T : Type*} [DecidableEq K] [LinearOrder T] (counters : Counters K T)

/-- The counters that are still there at a time: one goes when its time has
come. -/
def Counters.at_ (now : T) : Counters K T :=
  fun k => (counters k).filter fun counter => counter.expiresAt.all fun end_ => now < end_

/-- A counter that is not there counts as zero. -/
def Counters.count (k : K) : Nat := (counters k).elim 0 Counter.count

/-- INCR: the new count, and the counters after it.  The end of an old counter
stays, and a new one has none. -/
def Counters.incr (k : K) : Nat × Counters K T :=
  let count := counters.count k + 1
  (count, Function.update counters k (some ⟨count, (counters k).bind Counter.expiresAt⟩))

/-- EXPIRE: the counter goes at that time. -/
def Counters.expire (k : K) (end_ : T) : Counters K T :=
  Function.update counters k
    ((counters k).map fun counter => { counter with expiresAt := some end_ })

end Commands

section Counting

variable {K T R : Type*} [DecidableEq K] [LinearOrder T] {key : R → K} {time : R → T}
  {before : List R} {now : T} {counters : Counters K T}

/-- For every request that can still come, the counter of its key has counted
those before, and goes only after it. -/
def Counts (key : R → K) (time : R → T) (before : List R) (now : T) (counters : Counters K T) :
    Prop :=
  ∀ r, now ≤ time r → counters.count (key r) = load key before (key r) ∧
    ∀ counter end_, counters (key r) = some counter → counter.expiresAt = some end_ →
      time r < end_

/-- No counter goes before a request that can still come. -/
theorem Counts.later (h : Counts key time before now counters) {later : T} (hle : now ≤ later) :
    Counts key time before later (counters.at_ later) := by
  intro r hr
  obtain ⟨hcount, hend⟩ := h r (hle.trans hr)
  have hsame : counters.at_ later (key r) = counters (key r) := by
    unfold Counters.at_
    cases hcounter : counters (key r) with
    | none => rfl
    | some counter =>
        have hstays : (counter.expiresAt.all fun end_ => decide (later < end_)) = true := by
          cases hexpires : counter.expiresAt with
          | none => rfl
          | some end_ => exact decide_eq_true (hr.trans_lt (hend counter end_ hcounter hexpires))
        simp [hstays]
  exact ⟨by rw [Counters.count, hsame]; exact hcount, by rw [hsame]; exact hend⟩

/-- **INCR answers with the number of requests so far**, this one included. -/
theorem Counts.incr_fst (h : Counts key time before now counters) {r : R} (hr : now ≤ time r) :
    (counters.incr (key r)).1 = load key before (key r) + 1 := by
  rw [Counters.incr, (h r hr).1]

theorem Counts.incr_snd (h : Counts key time before now counters) {r : R} (hr : now ≤ time r) :
    Counts key time (before ++ [r]) now (counters.incr (key r)).2 := by
  intro e he
  obtain ⟨hcount, hend⟩ := h e he
  rw [load_snoc]
  by_cases hkey : key e = key r
  · rw [hkey] at hend hcount ⊢
    constructor
    · simp [Counters.incr, Counters.count, ← (h r hr).1]
    · intro counter end_ hcounter hexpires
      simp only [Counters.incr, Function.update_self, Option.some.injEq] at hcounter
      obtain rfl := hcounter
      obtain ⟨old, hold, hexpires⟩ := Option.bind_eq_some_iff.mp hexpires
      exact hend old end_ hold hexpires
  · have hsame : (counters.incr (key r)).2 (key e) = counters (key e) :=
      Function.update_of_ne hkey _ _
    rw [Counters.count, hsame, if_neg (Ne.symm hkey), Nat.add_zero]
    exact ⟨hcount, hend⟩

/-- An end after all requests of the key does no harm. -/
theorem Counts.expire (h : Counts key time before now counters) {k : K} {end_ : T}
    (hlate : ∀ r, now ≤ time r → key r = k → time r < end_) :
    Counts key time before now (counters.expire k end_) := by
  intro r hr
  obtain ⟨hcount, hend⟩ := h r hr
  by_cases hkey : key r = k
  · subst hkey
    rw [← hcount]
    constructor
    · cases hcounter : counters (key r) <;> simp [Counters.expire, Counters.count, hcounter]
    · intro counter last hcounter hexpires
      simp only [Counters.expire, Function.update_self] at hcounter
      obtain ⟨old, _, rfl⟩ := Option.map_eq_some_iff.mp hcounter
      obtain rfl := Option.some.inj hexpires
      exact hlate r hr rfl
  · have hsame : counters.expire k end_ (key r) = counters (key r) :=
      Function.update_of_ne hkey _ _
    rw [Counters.count, hsame]
    exact ⟨hcount, hend⟩

end Counting

end Quotas
