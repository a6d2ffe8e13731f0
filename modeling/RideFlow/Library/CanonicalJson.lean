import Mathlib.Data.List.Nodup
import Mathlib.Data.List.Perm.Subperm
import Mathlib.Data.List.Sort
import Mathlib.Data.String.Basic
import RideFlow.Library.Json

/-!
# Canonical JSON

`json.dumps(value, sort_keys=True)` sorts the members of every object by name and
writes the outcome.  Values that are alike (the same JSON types, numbers of the same
`repr`, the same strings, members in any order: `Value.Alike`) get one text, and others
get others (`canonical_eq_iff`).

This is not the `==` of Python, for which `1`, `1.0` and `True` are equal, and `0.0` and
`-0.0`: their texts differ.  Strings are sequences of Unicode scalar values here; a
Python string with a lone surrogate has no value.
-/

namespace PyJson

open List

/-- The order of members by their names. -/
def NameLe (m m' : String × Value) : Prop := m.1 ≤ m'.1

instance : DecidableRel NameLe := fun m m' => inferInstanceAs (Decidable (m.1 ≤ m'.1))

instance : Std.Total NameLe := ⟨fun m m' => le_total m.1 m'.1⟩

instance : IsTrans (String × Value) NameLe := ⟨fun _ _ _ h h' => le_trans h h'⟩

mutual

/-- Every object with its members sorted by name. -/
def Value.sortKeys : Value → Value
  | .array items => .array (sortItems items)
  | .object members => .object ((sortMembers members).insertionSort NameLe)
  | .null => .null
  | .bool b => .bool b
  | .number n => .number n
  | .string s => .string s

/-- The items of an array, each sorted within. -/
def sortItems : List Value → List Value
  | [] => []
  | v :: items => v.sortKeys :: sortItems items

/-- The members of an object in their order, each sorted within. -/
def sortMembers : List (String × Value) → List (String × Value)
  | [] => []
  | (name, v) :: members => (name, v.sortKeys) :: sortMembers members

end

/-- `json.dumps(value, sort_keys=True)`. -/
def canonical (v : Value) : List Char := dumps v.sortKeys

mutual

/-- Values of one JSON type with the same content, whatever the order of the members of
objects; numbers are compared by their `repr`. -/
def Value.Alike : Value → Value → Prop
  | .array items, .array items' => AlikeItems items items'
  | .object members, .object members' =>
      members.length = members'.length ∧ AlikeMembers members members'
  | .null, .null => True
  | .bool b, .bool b' => b = b'
  | .number n, .number n' => n = n'
  | .string s, .string s' => s = s'
  | _, _ => False

/-- Item by item, alike. -/
def AlikeItems : List Value → List Value → Prop
  | [], [] => True
  | v :: items, v' :: items' => v.Alike v' ∧ AlikeItems items items'
  | _, _ => False

/-- Each of these members is among those. -/
def AlikeMembers : List (String × Value) → List (String × Value) → Prop
  | [], _ => True
  | (name, v) :: members, members' =>
      (∃ v', (name, v') ∈ members' ∧ v.Alike v') ∧ AlikeMembers members members'

end

mutual

/-- No object names a member twice. -/
def Value.Distinct : Value → Prop
  | .array items => DistinctItems items
  | .object members => (members.map Prod.fst).Nodup ∧ DistinctMembers members
  | .null => True
  | .bool _ => True
  | .number _ => True
  | .string _ => True

/-- No item holds an object that names a member twice. -/
def DistinctItems : List Value → Prop
  | [] => True
  | v :: items => v.Distinct ∧ DistinctItems items

/-- No member's value holds an object that names a member twice. -/
def DistinctMembers : List (String × Value) → Prop
  | [] => True
  | (_, v) :: members => v.Distinct ∧ DistinctMembers members

end

/-- A number is like itself only. -/
@[simp] theorem number_alike {n : Numeral} {v : Value} :
    (Value.number n).Alike v ↔ v = .number n := by
  cases v <;> simp [Value.Alike, eq_comm]

/-- Objects are alike when they have as many members and each has its like. -/
theorem object_alike {members members' : List (String × Value)} :
    (Value.object members).Alike (.object members') ↔
      members.length = members'.length ∧ AlikeMembers members members' := by
  rw [Value.Alike]

/-- Members are sorted within one by one. -/
theorem sortMembers_eq_map (members : List (String × Value)) :
    sortMembers members = members.map fun m => (m.1, m.2.sortKeys) := by
  induction members with
  | nil => rfl
  | cons m members ih => rw [sortMembers, ih, map_cons]

/-- The names stay as they are. -/
theorem sortMembers_names (members : List (String × Value)) :
    (sortMembers members).map Prod.fst = members.map Prod.fst := by
  rw [sortMembers_eq_map, map_map]
  rfl

/-- There are as many members as before. -/
theorem sortMembers_length (members : List (String × Value)) :
    (sortMembers members).length = members.length := by
  rw [sortMembers_eq_map, length_map]

/-- The value of a member names nothing twice. -/
theorem distinctMembers_mem {members : List (String × Value)} (h : DistinctMembers members)
    {m : String × Value} (hm : m ∈ members) : m.2.Distinct := by
  induction members with
  | nil => cases hm
  | cons first members ih =>
      rcases mem_cons.mp hm with rfl | hlater
      · exact h.1
      · exact ih h.2 hlater

/-- Sorting puts members with distinct names in one order. -/
theorem sorted_eq_iff {l l' : List (String × Value)} (h : (l.map Prod.fst).Nodup)
    (h' : (l'.map Prod.fst).Nodup) :
    l.insertionSort NameLe = l'.insertionSort NameLe ↔ l.length = l'.length ∧ l ⊆ l' := by
  constructor
  · intro hsorted
    have hperm : l ~ l' :=
      (perm_insertionSort NameLe l).symm.trans (hsorted ▸ perm_insertionSort NameLe l')
    exact ⟨hperm.length_eq, hperm.subset⟩
  · rintro ⟨hlength, hsubset⟩
    have hperm : l ~ l' :=
      ((Nodup.of_map Prod.fst h).subperm hsubset).perm_of_length_le hlength.ge
    refine Perm.eq_of_pairwise ?_ (pairwise_insertionSort NameLe l)
      (pairwise_insertionSort NameLe l') ?_
    · intro a b ha hb hab hba
      have hname : a.1 = b.1 := le_antisymm hab hba
      exact inj_on_of_nodup_map h' (hsubset ((mem_insertionSort NameLe).mp ha))
        ((mem_insertionSort NameLe).mp hb) hname
    · exact (perm_insertionSort NameLe l).trans
        (hperm.trans (perm_insertionSort NameLe l').symm)

mutual

/-- Sorting tells apart what is not alike, and nothing else. -/
theorem sortKeys_eq_iff (v : Value) : ∀ w, v.Distinct → w.Distinct →
    (v.sortKeys = w.sortKeys ↔ v.Alike w) := by
  intro w hv hw
  match v with
  | .array items =>
      cases w with
      | array items' =>
          rw [Value.sortKeys, Value.sortKeys, Value.array.injEq, Value.Alike]
          exact sortItems_eq_iff items items' hv hw
      | _ => simp [Value.sortKeys, Value.Alike]
  | .object members =>
      cases w with
      | object members' =>
          have hnames : ((sortMembers members).map Prod.fst).Nodup :=
            sortMembers_names members ▸ hv.1
          have hnames' : ((sortMembers members').map Prod.fst).Nodup :=
            sortMembers_names members' ▸ hw.1
          rw [Value.sortKeys, Value.sortKeys, Value.object.injEq, sorted_eq_iff hnames hnames',
            sortMembers_length, sortMembers_length, Value.Alike]
          exact and_congr_right fun _ => sortMembers_subset_iff members members' hv.2 hw.2
      | _ => simp [Value.sortKeys, Value.Alike]
  | .null => cases w <;> simp [Value.sortKeys, Value.Alike]
  | .bool b => cases w <;> simp [Value.sortKeys, Value.Alike]
  | .number n => cases w <;> simp [Value.sortKeys, Value.Alike]
  | .string s => cases w <;> simp [Value.sortKeys, Value.Alike]

/-- The same for the items of arrays. -/
theorem sortItems_eq_iff (items : List Value) : ∀ items', DistinctItems items →
    DistinctItems items' → (sortItems items = sortItems items' ↔ AlikeItems items items') := by
  intro items' h h'
  match items, items' with
  | [], [] => simp [sortItems, AlikeItems]
  | [], v' :: items' => simp [sortItems, AlikeItems]
  | v :: items, [] => simp [sortItems, AlikeItems]
  | v :: items, v' :: items' =>
      rw [sortItems, sortItems, cons.injEq, sortKeys_eq_iff v v' h.1 h'.1,
        sortItems_eq_iff items items' h.2 h'.2, AlikeItems]

/-- The members of one object are among those of another when each has its like. -/
theorem sortMembers_subset_iff (members : List (String × Value)) : ∀ members',
    DistinctMembers members → DistinctMembers members' →
    (sortMembers members ⊆ sortMembers members' ↔ AlikeMembers members members') := by
  intro members' h h'
  match members with
  | [] => simp [sortMembers, AlikeMembers]
  | (name, v) :: members =>
      rw [sortMembers, cons_subset, sortMembers_subset_iff members members' h.2 h', AlikeMembers]
      refine and_congr_left fun _ => ?_
      rw [sortMembers_eq_map, mem_map]
      constructor
      · rintro ⟨⟨name', v'⟩, hmem, hsame⟩
        obtain ⟨rfl, hvalue⟩ := Prod.mk.inj hsame
        exact ⟨v', hmem, (sortKeys_eq_iff v v' h.1 (distinctMembers_mem h' hmem)).mp hvalue.symm⟩
      · rintro ⟨v', hmem, halike⟩
        have hvalue := (sortKeys_eq_iff v v' h.1 (distinctMembers_mem h' hmem)).mpr halike
        exact ⟨(name, v'), hmem, by rw [hvalue]⟩

end

/-- **The canonical text** is that of the value, up to the order of members. -/
theorem canonical_eq_iff {v w : Value} (hv : v.Distinct) (hw : w.Distinct) :
    canonical v = canonical w ↔ v.Alike w := by
  rw [canonical, canonical, dumps_injective.eq_iff, sortKeys_eq_iff v w hv hw]

end PyJson
