import Mathlib.Logic.Function.Basic
import RideFlow.Library.Tables
import RideFlow.Library.Trails

/-!
# Row locks and the log of committed updates

A table of rows under read-committed transactions, seen from the outside.  An
update locks its row until the end of the transaction, replaces the latest
committed row, and stays invisible until the commit; a transaction may update
the row it holds again.  A commit publishes the row and appends the
transaction's updates to a log; a rollback drops them.

The store is generic: `K` keys, `R` rows, `E` updates (an update is an edge
from the row it replaced to the row it wrote), `Q` transactions.  `born` says
which rows may be inserted and `good` what is known of every update.

* `Sound` and `Move.sound` -- locks, open transactions, rows and log agree;
* `Ordered` and `Move.ordered` -- the log of a row is in the order of effects;
* `Distinct` and `Move.distinct` -- no two updates took effect at one time;
* `Sound.row_inv` -- a row property that births have and good updates keep
  holds of every committed row, and of every row an update replaced;
* `Sound.rank_row`, `Sound.ranks_consumed` -- if good updates climb one rank,
  the log of a row consumes the ranks of that row one by one;
* `Extends` and `Move.extends` -- committed rows move along the logged updates;
* `Extends.seen` -- a row once read is the committed row or of a lower rank.
-/

namespace RowLocks

open Trails Tables Function

variable {K R E Q : Type*}

/-- What the store needs to know of rows and updates. -/
structure Schema (K R E : Type*) where
  key : R → K
  src : E → R
  tgt : E → R
  stamp : E → Nat
  key_tgt : ∀ e, key (tgt e) = key (src e)

/-- Committed rows, lock holders, uncommitted rows with the updates that led
to them, the log of committed updates and the number of updates so far. -/
@[ext] structure Store (K R E Q : Type*) where
  rows : K → Option R
  locks : K → Option Q
  opened : Q → Option (R × List E)
  log : List E
  now : Nat

section Release

variable [DecidableEq Q] {locks : K → Option Q} {q : Q} {k : K}

/-- A transaction gives up every lock it holds. -/
def release (locks : K → Option Q) (q : Q) : K → Option Q :=
  fun k => if locks k = some q then none else locks k

/-- After a release the lock holders are those that were somebody else. -/
theorem release_eq_some {p : Q} :
    release locks q k = some p ↔ locks k = some p ∧ p ≠ q := by
  by_cases h : locks k = some q
  · simp only [release, h, if_true]
    constructor
    · intro hnone
      cases hnone
    · intro hp
      exact absurd (Option.some.inj hp.1).symm hp.2
  · simp only [release, h, if_false]
    constructor
    · intro hp
      exact ⟨hp, fun hpq => h (hpq ▸ hp)⟩
    · exact And.left

end Release

variable [DecidableEq K] [DecidableEq Q] (σ : Schema K R E)
  (born : R → Prop) (good : E → Prop)

/-- The moves of the store. -/
inductive Move (s : Store K R E Q) : Store K R E Q → Prop
  | silent : Move s s
  | insert {row : R} (hborn : born row) (hfresh : s.rows (σ.key row) = none) :
      Move s { s with rows := update s.rows (σ.key row) (some row) }
  | update {q : Q} {e : E} (hgood : good e) (hstamp : σ.stamp e = s.now)
      (hidle : s.opened q = none) (hfree : s.locks (σ.key (σ.src e)) = none)
      (hrow : s.rows (σ.key (σ.src e)) = some (σ.src e)) :
      Move s { s with
        locks := update s.locks (σ.key (σ.src e)) (some q)
        opened := update s.opened q (some (σ.tgt e, [e]))
        now := s.now + 1 }
  | again {q : Q} {es : List E} {e : E} (hgood : good e) (hstamp : σ.stamp e = s.now)
      (hopen : s.opened q = some (σ.src e, es)) :
      Move s { s with
        opened := update s.opened q (some (σ.tgt e, es ++ [e]))
        now := s.now + 1 }
  | commit {q : Q} {row : R} {es : List E} (hopen : s.opened q = some (row, es)) :
      Move s { s with
        rows := update s.rows (σ.key row) (some row)
        locks := release s.locks q
        opened := update s.opened q none
        log := s.log ++ es }
  | rollback (q : Q) :
      Move s { s with
        locks := release s.locks q
        opened := update s.opened q none }

/-- The committed updates of the row stored under `k`. -/
def logOf (σ : Schema K R E) (s : Store K R E Q) (k : K) : List E :=
  s.log.filter fun e => σ.key (σ.src e) = k

/-- Locks, open transactions and rows agree, and the log of every row leads
from its birth to the committed row. -/
structure Sound (s : Store K R E Q) : Prop where
  lock_open : ∀ k q, s.locks k = some q →
    ∃ row es, s.opened q = some (row, es) ∧ σ.key row = k
  open_lock : ∀ q row es, s.opened q = some (row, es) → s.locks (σ.key row) = some q
  open_trail : ∀ q row es, s.opened q = some (row, es) →
    ∃ old, s.rows (σ.key row) = some old ∧ IsTrail σ.src σ.tgt old es row
  row_key : ∀ k row, s.rows k = some row → σ.key row = k
  row_trail : ∀ k row, s.rows k = some row →
    ∃ first, born first ∧ IsTrail σ.src σ.tgt first (logOf σ s k) row
  row_none : ∀ k, s.rows k = none → logOf σ s k = []
  log_good : ∀ e ∈ s.log, good e
  open_good : ∀ q row es, s.opened q = some (row, es) → ∀ e ∈ es, good e

/-- The log of every row lists its updates in the order in which they took
effect, and what a transaction has not committed yet took effect later. -/
structure Ordered (s : Store K R E Q) : Prop where
  log_past : ∀ e ∈ s.log, σ.stamp e < s.now
  open_past : ∀ q row es, s.opened q = some (row, es) → ∀ e ∈ es, σ.stamp e < s.now
  log_sorted : ∀ k, (logOf σ s k).Pairwise fun e f => σ.stamp e < σ.stamp f
  open_sorted : ∀ q row es, s.opened q = some (row, es) →
    es.Pairwise fun e f => σ.stamp e < σ.stamp f
  open_after : ∀ q row es, s.opened q = some (row, es) →
    ∀ e ∈ logOf σ s (σ.key row), ∀ f ∈ es, σ.stamp e < σ.stamp f

variable {σ born good} {s t : Store K R E Q}

omit [DecidableEq Q] in
@[simp] theorem mem_logOf {k : K} {e : E} :
    e ∈ logOf σ s k ↔ e ∈ s.log ∧ σ.key (σ.src e) = k := by
  simp [logOf]

omit [DecidableEq K] [DecidableEq Q] in
/-- An update keeps the key, so a whole trail stays on one key. -/
theorem trail_keys {a b : R} {es : List E} (h : IsTrail σ.src σ.tgt a es b) :
    σ.key b = σ.key a ∧ ∀ e ∈ es, σ.key (σ.src e) = σ.key a := by
  have hkeep : ∀ e ∈ es, σ.key (σ.src e) = σ.key a → σ.key (σ.tgt e) = σ.key a :=
    fun e _ he => (σ.key_tgt e).trans he
  exact ⟨h.vertex_inv (P := fun v => σ.key v = σ.key a) rfl hkeep,
    h.vertex_inv_src (P := fun v => σ.key v = σ.key a) rfl hkeep⟩

omit [DecidableEq Q] in
/-- A commit extends the log of the row it publishes and no other. -/
theorem filter_trail {a b : R} {es : List E} (h : IsTrail σ.src σ.tgt a es b) (k : K) :
    es.filter (fun e => decide (σ.key (σ.src e) = k)) =
      if σ.key b = k then es else [] := by
  obtain ⟨hend, hall⟩ := trail_keys h
  split
  case isTrue hk =>
      apply List.filter_eq_self.mpr
      intro e he
      simpa [hall e he, ← hend] using hk
  case isFalse hk =>
      apply List.filter_eq_nil_iff.mpr
      intro e he
      simpa [hall e he, ← hend] using hk

omit [DecidableEq Q] in
/-- Sound under a stronger predicate, sound under a weaker one. -/
theorem Sound.mono {good' : E → Prop} (hle : ∀ e, good e → good' e)
    (h : Sound σ born good s) : Sound σ born good' s :=
  { h with
    log_good := fun e he => hle e (h.log_good e he)
    open_good := fun q row es hopen e he => hle e (h.open_good q row es hopen e he) }

omit [DecidableEq Q] in
/-- Two transactions never work on one row. -/
theorem Sound.exclusive (h : Sound σ born good s) {p q : Q} {row row' : R} {es es' : List E}
    (hp : s.opened p = some (row, es)) (hq : s.opened q = some (row', es'))
    (hkey : σ.key row = σ.key row') : p = q := by
  have hlp := h.open_lock p row es hp
  have hlq := h.open_lock q row' es' hq
  rw [hkey, hlq] at hlp
  exact (Option.some.inj hlp).symm

/-! ### One move keeps the store sound -/

omit [DecidableEq Q] in
/-- A row that is born under a free key may be inserted. -/
theorem Sound.insert (h : Sound σ born good s) {row : R} (hborn : born row)
    (hfresh : s.rows (σ.key row) = none) :
    Sound σ born good { s with rows := update s.rows (σ.key row) (some row) } where
  lock_open := h.lock_open
  open_lock := h.open_lock
  open_trail := by
    intro q row' es hopen
    obtain ⟨old, hold, htrail⟩ := h.open_trail q row' es hopen
    have hne : σ.key row' ≠ σ.key row := by
      intro heq
      rw [heq, hfresh] at hold
      cases hold
    exact ⟨old, update_some_iff.mpr (Or.inr ⟨hne, hold⟩), htrail⟩
  row_key := by
    intro k row' hrow
    rcases update_some_iff.mp hrow with ⟨hk, rfl⟩ | ⟨_, hold⟩
    · exact hk.symm
    · exact h.row_key k row' hold
  row_trail := by
    intro k row' hrow
    rcases update_some_iff.mp hrow with ⟨hk, rfl⟩ | ⟨_, hold⟩
    · have hlog : logOf σ s k = [] := h.row_none k (hk ▸ hfresh)
      refine ⟨row, hborn, ?_⟩
      change IsTrail σ.src σ.tgt row (logOf σ s k) row
      rw [hlog]
      rfl
    · exact h.row_trail k row' hold
  row_none := fun k hnone => h.row_none k (update_some_eq_none.mp hnone).2
  log_good := h.log_good
  open_good := h.open_good

/-- An update of the row as it is committed takes the lock. -/
theorem Sound.update (h : Sound σ born good s) {q : Q} {e : E} {n : Nat} (hgood : good e)
    (hidle : s.opened q = none) (hfree : s.locks (σ.key (σ.src e)) = none)
    (hrow : s.rows (σ.key (σ.src e)) = some (σ.src e)) :
    Sound σ born good { s with
      locks := Function.update s.locks (σ.key (σ.src e)) (some q)
      opened := Function.update s.opened q (some (σ.tgt e, [e]))
      now := n } where
  lock_open := by
    intro k p hlock
    rcases update_some_iff.mp hlock with ⟨rfl, rfl⟩ | ⟨_, hold⟩
    · exact ⟨σ.tgt e, [e], by simp, σ.key_tgt e⟩
    · obtain ⟨row, es, hopen, hkey⟩ := h.lock_open k p hold
      have hpq : p ≠ q := by
        intro heq
        rw [heq, hidle] at hopen
        cases hopen
      exact ⟨row, es, update_some_iff.mpr (Or.inr ⟨hpq, hopen⟩), hkey⟩
  open_lock := by
    intro p row es hopen
    rcases update_some_iff.mp hopen with ⟨rfl, hnew⟩ | ⟨_, hold⟩
    · cases hnew
      simp [σ.key_tgt e]
    · have hlock := h.open_lock p row es hold
      have hne : σ.key row ≠ σ.key (σ.src e) := by
        intro heq
        rw [heq, hfree] at hlock
        cases hlock
      exact update_some_iff.mpr (Or.inr ⟨hne, hlock⟩)
  open_trail := by
    intro p row es hopen
    rcases update_some_iff.mp hopen with ⟨rfl, hnew⟩ | ⟨_, hold⟩
    · cases hnew
      exact ⟨σ.src e, by simpa [σ.key_tgt e] using hrow, rfl, rfl⟩
    · exact h.open_trail p row es hold
  row_key := h.row_key
  row_trail := h.row_trail
  row_none := h.row_none
  log_good := h.log_good
  open_good := by
    intro p row es hopen
    rcases update_some_iff.mp hopen with ⟨rfl, hnew⟩ | ⟨_, hold⟩
    · cases hnew
      simpa using hgood
    · exact h.open_good p row es hold

/-- Another one by the holder goes on from what it has written. -/
theorem Sound.again (h : Sound σ born good s) {q : Q} {es : List E} {e : E} {n : Nat}
    (hgood : good e) (hopen : s.opened q = some (σ.src e, es)) :
    Sound σ born good { s with
      opened := Function.update s.opened q (some (σ.tgt e, es ++ [e]))
      now := n } where
  lock_open := by
    intro k p hlock
    obtain ⟨row, fs, hp, hkey⟩ := h.lock_open k p hlock
    by_cases hpq : p = q
    · subst hpq
      obtain ⟨rfl, rfl⟩ : σ.src e = row ∧ es = fs := by simpa [hopen] using hp
      exact ⟨σ.tgt e, es ++ [e], by simp, (σ.key_tgt e).trans hkey⟩
    · exact ⟨row, fs, update_some_iff.mpr (Or.inr ⟨hpq, hp⟩), hkey⟩
  open_lock := by
    intro p row fs hp
    rcases update_some_iff.mp hp with ⟨rfl, hnew⟩ | ⟨_, hold⟩
    · cases hnew
      simpa [σ.key_tgt e] using h.open_lock p _ es hopen
    · exact h.open_lock p row fs hold
  open_trail := by
    intro p row fs hp
    rcases update_some_iff.mp hp with ⟨rfl, hnew⟩ | ⟨_, hold⟩
    · cases hnew
      obtain ⟨old, hrow, htrail⟩ := h.open_trail p _ es hopen
      exact ⟨old, by simpa [σ.key_tgt e] using hrow, isTrail_snoc.mpr ⟨htrail, rfl⟩⟩
    · exact h.open_trail p row fs hold
  row_key := h.row_key
  row_trail := h.row_trail
  row_none := h.row_none
  log_good := h.log_good
  open_good := by
    intro p row fs hp
    rcases update_some_iff.mp hp with ⟨rfl, hnew⟩ | ⟨_, hold⟩
    · cases hnew
      intro f hf
      rcases List.mem_append.mp hf with hf | hf
      · exact h.open_good p _ es hopen f hf
      · obtain rfl : f = e := by simpa using hf
        exact hgood
    · exact h.open_good p row fs hold

omit [DecidableEq Q] in
/-- The log of a row after a commit. -/
theorem Sound.logOf_commit (h : Sound σ born good s) {q : Q} {row : R} {es : List E}
    (hopen : s.opened q = some (row, es)) (k : K) :
    (s.log ++ es).filter (fun e => decide (σ.key (σ.src e) = k)) =
      logOf σ s k ++ if σ.key row = k then es else [] := by
  obtain ⟨old, _, htrail⟩ := h.open_trail q row es hopen
  rw [List.filter_append, filter_trail htrail k, logOf]

/-- A COMMIT writes the row and the effects, and gives up the locks. -/
theorem Sound.commit (h : Sound σ born good s) {q : Q} {row : R} {es : List E}
    (hopen : s.opened q = some (row, es)) :
    Sound σ born good { s with
      rows := Function.update s.rows (σ.key row) (some row)
      locks := release s.locks q
      opened := Function.update s.opened q none
      log := s.log ++ es } where
  lock_open := by
    intro k p hlock
    obtain ⟨hold, hpq⟩ := release_eq_some.mp hlock
    obtain ⟨row', fs, hp, hkey⟩ := h.lock_open k p hold
    exact ⟨row', fs, update_none_iff.mpr ⟨hpq, hp⟩, hkey⟩
  open_lock := by
    intro p row' fs hp
    obtain ⟨hpq, hold⟩ := update_none_iff.mp hp
    exact release_eq_some.mpr ⟨h.open_lock p row' fs hold, hpq⟩
  open_trail := by
    intro p row' fs hp
    obtain ⟨hpq, hp⟩ := update_none_iff.mp hp
    obtain ⟨old, hold, htrail⟩ := h.open_trail p row' fs hp
    have hne : σ.key row' ≠ σ.key row := fun heq => hpq (h.exclusive hp hopen heq)
    exact ⟨old, update_some_iff.mpr (Or.inr ⟨hne, hold⟩), htrail⟩
  row_key := by
    intro k row' hrow
    rcases update_some_iff.mp hrow with ⟨hk, rfl⟩ | ⟨_, hold⟩
    · exact hk.symm
    · exact h.row_key k row' hold
  row_trail := by
    intro k row' hrow
    rw [logOf, h.logOf_commit hopen k]
    rcases update_some_iff.mp hrow with ⟨rfl, rfl⟩ | ⟨hk, hold⟩
    · obtain ⟨old, hold, htrail⟩ := h.open_trail q row es hopen
      obtain ⟨first, hborn, hlog⟩ := h.row_trail _ old hold
      exact ⟨first, hborn, by simpa using isTrail_append.mpr ⟨old, hlog, htrail⟩⟩
    · obtain ⟨first, hborn, hlog⟩ := h.row_trail k row' hold
      exact ⟨first, hborn, by simpa [Ne.symm hk] using hlog⟩
  row_none := by
    intro k hnone
    obtain ⟨hk, hold⟩ := update_some_eq_none.mp hnone
    rw [logOf, h.logOf_commit hopen k, h.row_none k hold]
    simp [Ne.symm hk]
  log_good := by
    intro e he
    rcases List.mem_append.mp he with he | he
    · exact h.log_good e he
    · exact h.open_good q row es hopen e he
  open_good := by
    intro p row' fs hp
    exact h.open_good p row' fs (update_none_iff.mp hp).2

/-- A ROLLBACK gives up the locks, and nothing else. -/
theorem Sound.rollback (h : Sound σ born good s) (q : Q) :
    Sound σ born good { s with
      locks := release s.locks q
      opened := Function.update s.opened q none } where
  lock_open := by
    intro k p hlock
    obtain ⟨hold, hpq⟩ := release_eq_some.mp hlock
    obtain ⟨row, fs, hp, hkey⟩ := h.lock_open k p hold
    exact ⟨row, fs, update_none_iff.mpr ⟨hpq, hp⟩, hkey⟩
  open_lock := by
    intro p row fs hp
    obtain ⟨hpq, hold⟩ := update_none_iff.mp hp
    exact release_eq_some.mpr ⟨h.open_lock p row fs hold, hpq⟩
  open_trail := fun p row fs hp => h.open_trail p row fs (update_none_iff.mp hp).2
  row_key := h.row_key
  row_trail := h.row_trail
  row_none := h.row_none
  log_good := h.log_good
  open_good := fun p row fs hp => h.open_good p row fs (update_none_iff.mp hp).2

/-- **Every move keeps the store sound.** -/
theorem Move.sound (hmove : Move σ born good s t) (h : Sound σ born good s) :
    Sound σ born good t := by
  cases hmove with
  | silent => exact h
  | insert hborn hfresh => exact h.insert hborn hfresh
  | update hgood _ hidle hfree hrow => exact h.update hgood hidle hfree hrow
  | again hgood _ hopen => exact h.again hgood hopen
  | commit hopen => exact h.commit hopen
  | rollback q => exact h.rollback q

/-! ### One move keeps the order of effects -/

omit [DecidableEq Q] in
/-- An insert leaves the effects in their order. -/
theorem Ordered.insert (h : Ordered σ s) (row : R) :
    Ordered σ { s with rows := update s.rows (σ.key row) (some row) } :=
  ⟨h.log_past, h.open_past, h.log_sorted, h.open_sorted, h.open_after⟩

/-- A new effect is the latest of all. -/
theorem Ordered.update (h : Ordered σ s) {q : Q} {e : E} (hstamp : σ.stamp e = s.now)
    (locks : K → Option Q) :
    Ordered σ { s with
      locks := locks
      opened := Function.update s.opened q (some (σ.tgt e, [e]))
      now := s.now + 1 } where
  log_past := fun f hf => Nat.lt_succ_of_lt (h.log_past f hf)
  open_past := by
    intro p row es hp
    rcases update_some_iff.mp hp with ⟨rfl, hnew⟩ | ⟨_, hold⟩
    · cases hnew
      intro f hf
      obtain rfl : f = e := by simpa using hf
      exact hstamp ▸ Nat.lt_succ_self _
    · exact fun f hf => Nat.lt_succ_of_lt (h.open_past p row es hold f hf)
  log_sorted := h.log_sorted
  open_sorted := by
    intro p row es hp
    rcases update_some_iff.mp hp with ⟨rfl, hnew⟩ | ⟨_, hold⟩
    · cases hnew
      exact List.pairwise_singleton _ _
    · exact h.open_sorted p row es hold
  open_after := by
    intro p row es hp
    rcases update_some_iff.mp hp with ⟨rfl, hnew⟩ | ⟨_, hold⟩
    · cases hnew
      intro f hf g hg
      obtain rfl : g = e := by simpa using hg
      exact hstamp ▸ h.log_past f (mem_logOf.mp hf).1
    · exact h.open_after p row es hold

/-- So is another one of the same transaction. -/
theorem Ordered.again (h : Ordered σ s) {q : Q} {es : List E} {e : E}
    (hstamp : σ.stamp e = s.now) (hopen : s.opened q = some (σ.src e, es)) :
    Ordered σ { s with
      opened := Function.update s.opened q (some (σ.tgt e, es ++ [e]))
      now := s.now + 1 } where
  log_past := fun f hf => Nat.lt_succ_of_lt (h.log_past f hf)
  open_past := by
    intro p row fs hp
    rcases update_some_iff.mp hp with ⟨rfl, hnew⟩ | ⟨_, hold⟩
    · cases hnew
      intro f hf
      rcases List.mem_append.mp hf with hf | hf
      · exact Nat.lt_succ_of_lt (h.open_past p _ es hopen f hf)
      · obtain rfl : f = e := by simpa using hf
        exact hstamp ▸ Nat.lt_succ_self _
    · exact fun f hf => Nat.lt_succ_of_lt (h.open_past p row fs hold f hf)
  log_sorted := h.log_sorted
  open_sorted := by
    intro p row fs hp
    rcases update_some_iff.mp hp with ⟨rfl, hnew⟩ | ⟨_, hold⟩
    · cases hnew
      rw [List.pairwise_append]
      refine ⟨h.open_sorted p _ es hopen, List.pairwise_singleton _ _, ?_⟩
      intro f hf g hg
      obtain rfl : g = e := by simpa using hg
      exact hstamp ▸ h.open_past p _ es hopen f hf
    · exact h.open_sorted p row fs hold
  open_after := by
    intro p row fs hp
    rcases update_some_iff.mp hp with ⟨rfl, hnew⟩ | ⟨_, hold⟩
    · cases hnew
      intro f hf g hg
      rcases List.mem_append.mp hg with hg | hg
      · rw [σ.key_tgt e] at hf
        exact h.open_after p _ es hopen f hf g hg
      · obtain rfl : g = e := by simpa using hg
        exact hstamp ▸ h.log_past f (mem_logOf.mp hf).1
    · exact h.open_after p row fs hold

/-- The effects of a transaction are later than all of the log on its row. -/
theorem Ordered.commit (h : Ordered σ s) (hs : Sound σ born good s) {q : Q} {row : R}
    {es : List E} (hopen : s.opened q = some (row, es)) :
    Ordered σ { s with
      rows := Function.update s.rows (σ.key row) (some row)
      locks := release s.locks q
      opened := Function.update s.opened q none
      log := s.log ++ es } where
  log_past := by
    intro f hf
    rcases List.mem_append.mp hf with hf | hf
    · exact h.log_past f hf
    · exact h.open_past q row es hopen f hf
  open_past := fun p row' fs hp => h.open_past p row' fs (update_none_iff.mp hp).2
  log_sorted := by
    intro k
    rw [logOf, hs.logOf_commit hopen k]
    by_cases hk : σ.key row = k
    · subst hk
      rw [if_pos rfl, List.pairwise_append]
      exact ⟨h.log_sorted _, h.open_sorted q row es hopen, h.open_after q row es hopen⟩
    · rw [if_neg hk, List.append_nil]
      exact h.log_sorted k
  open_sorted := fun p row' fs hp => h.open_sorted p row' fs (update_none_iff.mp hp).2
  open_after := by
    intro p row' fs hp
    obtain ⟨hpq, hp⟩ := update_none_iff.mp hp
    have hne : σ.key row ≠ σ.key row' := fun heq => hpq (hs.exclusive hp hopen heq.symm)
    rw [logOf, hs.logOf_commit hopen, if_neg hne, List.append_nil]
    exact h.open_after p row' fs hp

/-- What remains is in order. -/
theorem Ordered.rollback (h : Ordered σ s) (q : Q) :
    Ordered σ { s with
      locks := release s.locks q
      opened := Function.update s.opened q none } where
  log_past := h.log_past
  open_past := fun p row fs hp => h.open_past p row fs (update_none_iff.mp hp).2
  log_sorted := h.log_sorted
  open_sorted := fun p row fs hp => h.open_sorted p row fs (update_none_iff.mp hp).2
  open_after := fun p row fs hp => h.open_after p row fs (update_none_iff.mp hp).2

/-- **Every move keeps the order of effects.** -/
theorem Move.ordered (hmove : Move σ born good s t) (hs : Sound σ born good s)
    (h : Ordered σ s) : Ordered σ t := by
  cases hmove with
  | silent => exact h
  | insert _ _ => exact h.insert _
  | update _ hstamp _ _ _ => exact h.update hstamp _
  | again _ hstamp hopen => exact h.again hstamp hopen
  | commit hopen => exact h.commit hs hopen
  | rollback q => exact h.rollback q

/-! ### One move keeps the effects distinct -/

/-- No two updates took effect at the same time, whether committed or not. -/
structure Distinct (σ : Schema K R E) (s : Store K R E Q) : Prop where
  log : (s.log.map σ.stamp).Nodup
  apart : ∀ q row es, s.opened q = some (row, es) →
    ∀ e ∈ es, ∀ f ∈ s.log, σ.stamp e ≠ σ.stamp f
  opened : ∀ p q rowP rowQ esP esQ, p ≠ q → s.opened p = some (rowP, esP) →
    s.opened q = some (rowQ, esQ) → ∀ e ∈ esP, ∀ f ∈ esQ, σ.stamp e ≠ σ.stamp f

/-- An update that takes effect now is distinct from all others. -/
theorem Distinct.update (hd : Distinct σ s) (h : Ordered σ s) {q : Q} {row : R} {es : List E}
    (hes : ∀ e ∈ es, σ.stamp e = s.now ∨
      ∃ row' es', s.opened q = some (row', es') ∧ e ∈ es') (locks : K → Option Q) :
    Distinct σ { s with
      locks := locks
      opened := Function.update s.opened q (some (row, es))
      now := s.now + 1 } where
  log := hd.log
  apart := by
    intro p row' fs hp
    rcases update_some_iff.mp hp with ⟨rfl, hnew⟩ | ⟨_, hold⟩
    · cases hnew
      intro e he f hf
      rcases hes e he with hnow | ⟨row', es', hopen, he⟩
      · have hpast := h.log_past f hf
        omega
      · exact hd.apart p row' es' hopen e he f hf
    · exact hd.apart p row' fs hold
  opened := by
    have hother : ∀ p rowP esP, p ≠ q → s.opened p = some (rowP, esP) →
        ∀ e ∈ esP, ∀ f ∈ es, σ.stamp e ≠ σ.stamp f := by
      intro p rowP esP hpq hp e he f hf
      rcases hes f hf with hnow | ⟨row', es', hopen, hf⟩
      · have hpast := h.open_past p rowP esP hp e he
        omega
      · exact hd.opened p q rowP row' esP es' hpq hp hopen e he f hf
    intro p p' rowP rowP' esP esP' hne hp hp'
    rcases update_some_iff.mp hp with ⟨rfl, hnew⟩ | ⟨hpq, hold⟩
    · cases hnew
      rcases update_some_iff.mp hp' with ⟨heq, _⟩ | ⟨_, hold'⟩
      · exact absurd heq.symm hne
      · exact fun e he f hf => (hother p' rowP' esP' (Ne.symm hne) hold' f hf e he).symm
    · rcases update_some_iff.mp hp' with ⟨rfl, hnew⟩ | ⟨_, hold'⟩
      · cases hnew
        exact hother p rowP esP hpq hold
      · exact hd.opened p p' rowP rowP' esP esP' hne hold hold'

/-- A COMMIT brings no stamp that is in the log. -/
theorem Distinct.commit (hd : Distinct σ s) (h : Ordered σ s) {q : Q} {row : R} {es : List E}
    (hopen : s.opened q = some (row, es)) (rows : K → Option R) (locks : K → Option Q) :
    Distinct σ { s with
      rows := rows
      locks := locks
      opened := Function.update s.opened q none
      log := s.log ++ es } where
  log := by
    rw [List.map_append]
    refine List.nodup_append.mpr ⟨hd.log, ?_, ?_⟩
    · have hsorted := h.open_sorted q row es hopen
      rw [← List.pairwise_map] at hsorted
      exact hsorted.imp Nat.ne_of_lt
    · intro a ha b hb
      obtain ⟨e, he, rfl⟩ := List.mem_map.mp ha
      obtain ⟨f, hf, rfl⟩ := List.mem_map.mp hb
      exact (hd.apart q row es hopen f hf e he).symm
  apart := by
    intro p row' fs hp
    obtain ⟨hpq, hp⟩ := update_none_iff.mp hp
    intro e he f hf
    rcases List.mem_append.mp hf with hf | hf
    · exact hd.apart p row' fs hp e he f hf
    · exact hd.opened p q row' row fs es hpq hp hopen e he f hf
  opened := fun p p' rowP rowP' esP esP' hne hp hp' =>
    hd.opened p p' rowP rowP' esP esP' hne (update_none_iff.mp hp).2 (update_none_iff.mp hp').2

/-- **Every move keeps the effects distinct.** -/
theorem Move.distinct (hmove : Move σ born good s t) (h : Ordered σ s) (hd : Distinct σ s) :
    Distinct σ t := by
  cases hmove with
  | silent => exact hd
  | insert _ _ => exact ⟨hd.log, hd.apart, hd.opened⟩
  | update _ hstamp _ _ _ =>
      refine hd.update h (fun e he => ?_) _
      obtain rfl := List.mem_singleton.mp he
      exact Or.inl hstamp
  | again _ hstamp hopen =>
      refine hd.update h (fun e he => ?_) s.locks
      rcases List.mem_append.mp he with hold | hlast
      · exact Or.inr ⟨_, _, hopen, hold⟩
      · obtain rfl := List.mem_singleton.mp hlast
        exact Or.inl hstamp
  | commit hopen => exact hd.commit h hopen _ _
  | rollback q =>
      exact ⟨hd.log, fun p row fs hp => hd.apart p row fs (update_none_iff.mp hp).2,
        fun p p' _ _ _ _ hne hp hp' => hd.opened p p' _ _ _ _ hne (update_none_iff.mp hp).2
          (update_none_iff.mp hp').2⟩

/-! ### What a sound store tells about its rows -/

omit [DecidableEq Q] in
/-- A row property that births have and good updates keep holds of every
committed row. -/
theorem Sound.row_inv (h : Sound σ born good s) {P : R → Prop}
    (hbirth : ∀ r, born r → P r) (hkeep : ∀ e, good e → P (σ.src e) → P (σ.tgt e))
    {k : K} {row : R} (hrow : s.rows k = some row) : P row := by
  obtain ⟨first, hborn, htrail⟩ := h.row_trail k row hrow
  exact htrail.vertex_inv (hbirth first hborn)
    fun e he => hkeep e (h.log_good e (mem_logOf.mp he).1)

omit [DecidableEq Q] in
/-- Such a property holds of every uncommitted row, too. -/
theorem Sound.open_inv (h : Sound σ born good s) {P : R → Prop}
    (hbirth : ∀ r, born r → P r) (hkeep : ∀ e, good e → P (σ.src e) → P (σ.tgt e))
    {q : Q} {row : R} {es : List E} (hopen : s.opened q = some (row, es)) : P row := by
  obtain ⟨old, hold, htrail⟩ := h.open_trail q row es hopen
  exact htrail.vertex_inv (h.row_inv hbirth hkeep hold)
    fun e he => hkeep e (h.open_good q row es hopen e he)

/-- From `s` to `t` the committed rows only move along the updates that the
log gains. -/
def Extends (σ : Schema K R E) (s t : Store K R E Q) : Prop :=
  ∀ k old, s.rows k = some old →
    ∃ new es, t.rows k = some new ∧ logOf σ t k = logOf σ s k ++ es ∧
      IsTrail σ.src σ.tgt old es new

omit [DecidableEq Q] in
/-- A store extends itself. -/
theorem Extends.refl (s : Store K R E Q) : Extends σ s s :=
  fun _ old hold => ⟨old, [], hold, (List.append_nil _).symm, rfl⟩

omit [DecidableEq Q] in
/-- What extends an extension extends the store. -/
theorem Extends.trans {u : Store K R E Q} (h₁ : Extends σ s t) (h₂ : Extends σ t u) :
    Extends σ s u := by
  intro k old hold
  obtain ⟨mid, es, hmid, hlog, htrail⟩ := h₁ k old hold
  obtain ⟨new, fs, hnew, hlog', htrail'⟩ := h₂ k mid hmid
  refine ⟨new, es ++ fs, hnew, ?_, isTrail_append.mpr ⟨mid, htrail, htrail'⟩⟩
  rw [hlog', hlog, List.append_assoc]

/-- **Every move extends the store.** -/
theorem Move.extends (hmove : Move σ born good s t) (h : Sound σ born good s) :
    Extends σ s t := by
  cases hmove with
  | silent => exact .refl s
  | insert hborn hfresh =>
      intro k old hold
      refine ⟨old, [], update_some_iff.mpr (Or.inr ⟨?_, hold⟩), (List.append_nil _).symm, rfl⟩
      intro heq
      rw [← heq, hold] at hfresh
      cases hfresh
  | update _ _ _ _ _ => exact .refl s
  | again _ _ _ => exact .refl s
  | @commit q new es hopen =>
      intro k old hold
      by_cases hk : k = σ.key new
      · subst hk
        obtain ⟨old', hold', htrail⟩ := h.open_trail q new es hopen
        obtain rfl : old' = old := Option.some.inj (hold'.symm.trans hold)
        refine ⟨new, es, by simp, ?_, htrail⟩
        rw [logOf, h.logOf_commit hopen, if_pos rfl]
      · refine ⟨old, [], update_some_iff.mpr (Or.inr ⟨hk, hold⟩), ?_, rfl⟩
        rw [logOf, h.logOf_commit hopen, if_neg (Ne.symm hk)]
  | rollback _ => exact .refl s

section Ranks

variable (rank : R → Nat) {base : Nat}
  (hclimb : ∀ e, good e → rank (σ.tgt e) = rank (σ.src e) + 1)

include hclimb

omit [DecidableEq Q] in
/-- The rank of a committed row counts its committed updates. -/
theorem Sound.rank_row (h : Sound σ born good s) (hbase : ∀ r, born r → rank r = base)
    {k : K} {row : R} (hrow : s.rows k = some row) :
    rank row = base + (logOf σ s k).length := by
  obtain ⟨first, hborn, htrail⟩ := h.row_trail k row hrow
  have hgood : ∀ e ∈ logOf σ s k, rank (σ.tgt e) = rank (σ.src e) + 1 :=
    fun e he => hclimb e (h.log_good e (mem_logOf.mp he).1)
  rw [htrail.rank_end rank hgood, hbase first hborn]

omit [DecidableEq Q] in
/-- **The ranks of a row are consumed one by one**, by its committed updates,
in the order of the log. -/
theorem Sound.ranks_consumed (h : Sound σ born good s) (hbase : ∀ r, born r → rank r = base)
    (k : K) : (logOf σ s k).map (fun e => rank (σ.src e)) =
      List.range' base (logOf σ s k).length := by
  cases hrow : s.rows k with
  | none => rw [h.row_none k hrow]; rfl
  | some row =>
      obtain ⟨first, hborn, htrail⟩ := h.row_trail k row hrow
      have hgood : ∀ e ∈ logOf σ s k, rank (σ.tgt e) = rank (σ.src e) + 1 :=
        fun e he => hclimb e (h.log_good e (mem_logOf.mp he).1)
      rw [htrail.ranks rank hgood, hbase first hborn]

omit [DecidableEq Q] in
/-- An extension leaves a committed row alone or replaces it by one of higher
rank. -/
theorem Extends.rank_le (hext : Extends σ s t) (h : Sound σ born good t) {k : K} {row : R}
    (hrow : s.rows k = some row) :
    ∃ row', t.rows k = some row' ∧ (row' = row ∨ rank row < rank row') := by
  obtain ⟨row', es, hrow', hlog, htrail⟩ := hext k row hrow
  have hgood : ∀ e ∈ es, rank (σ.tgt e) = rank (σ.src e) + 1 := by
    intro e he
    have hmem : e ∈ logOf σ t k := hlog ▸ List.mem_append_right _ he
    exact hclimb e (h.log_good e (mem_logOf.mp hmem).1)
  have hend := htrail.rank_end rank hgood
  refine ⟨row', hrow', ?_⟩
  cases es with
  | nil => exact Or.inl htrail.symm
  | cons e es =>
      rw [List.length_cons] at hend
      exact Or.inr (by omega)

end Ranks

/-- A row as some transaction once read it: it is the committed row still, or
of a lower rank. -/
def Seen (σ : Schema K R E) (rank : R → Nat) (s : Store K R E Q) (row : R) : Prop :=
  ∃ cur, s.rows (σ.key row) = some cur ∧ (cur = row ∨ rank row < rank cur)

omit [DecidableEq Q] in
/-- A row just read has been seen. -/
theorem Sound.seen (h : Sound σ born good s) {rank : R → Nat} {k : K} {row : R}
    (hrow : s.rows k = some row) : Seen σ rank s row := by
  have hk := h.row_key k row hrow
  exact ⟨row, by rw [hk]; exact hrow, Or.inl rfl⟩

omit [DecidableEq Q] in
/-- **What was seen stays seen.** -/
theorem Extends.seen (hext : Extends σ s t) (h : Sound σ born good t) {rank : R → Nat}
    (hclimb : ∀ e, good e → rank (σ.tgt e) = rank (σ.src e) + 1)
    {row : R} (hseen : Seen σ rank s row) : Seen σ rank t row := by
  obtain ⟨cur, hcur, hle⟩ := hseen
  obtain ⟨cur', hcur', hle'⟩ := hext.rank_le rank hclimb h hcur
  refine ⟨cur', hcur', ?_⟩
  rcases hle' with rfl | hlt
  · exact hle
  · rcases hle with rfl | hlt'
    · exact Or.inr hlt
    · exact Or.inr (Nat.lt_trans hlt' hlt)

end RowLocks
