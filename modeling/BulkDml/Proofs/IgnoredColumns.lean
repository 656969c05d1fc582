import BulkDml.Assignment
import Mathlib.Data.List.Nodup
import Mathlib.Data.List.Perm.Basic

/-! # Ignored columns

A set of ignored columns is built by adding names one after the other.  It keeps the first spelling of each name,
where two spellings are of one name if their lower-case forms agree, and it holds a column if any spelling of its
name was added, kept or not.  So what an assignment leaves out depends on the names that were added and neither on
their spelling nor on their order.

* `firstSpellings` — the names that no earlier one agrees with, in order;
* `IgnoreSet.IsSetOf` — what is known of a set to which some names were added;
* `IgnoreSet.IsSetOf.insert`, `IgnoreSet.IsSetOf.foldl_insert` — it is kept by one addition, hence by any number;
* `IgnoreSet.ofList_law` — the sets of all lists of names, and what assignments leave out because of them.
-/

namespace BulkDml

/-! ## First spellings -/

/-- The names in whose place no earlier name has the same lower-case form, in order. -/
def firstSpellings (names : List Text) : List Text :=
  (names.zipIdx.filter fun entry =>
    (names.take entry.2).all fun earlier => earlier.lowercase != entry.1.lowercase).map (·.1)

/-- A further name is a first spelling unless an earlier name has its lower-case form. -/
theorem firstSpellings_concat (names : List Text) (name : Text) :
    firstSpellings (names ++ [name])
      = firstSpellings names
        ++ (if names.all fun earlier => earlier.lowercase != name.lowercase then [name] else []) := by
  have hfront : (names.zipIdx.filter fun entry =>
        ((names ++ [name]).take entry.2).all fun earlier => earlier.lowercase != entry.1.lowercase)
      = names.zipIdx.filter fun entry =>
        (names.take entry.2).all fun earlier => earlier.lowercase != entry.1.lowercase := by
    -- what stands before a place of `names` stands before it in the longer list
    apply List.filter_congr
    intro entry hentry
    have hlt : entry.2 < names.length := List.snd_lt_of_mem_zipIdx hentry
    rw [List.take_append_of_le_length (Nat.le_of_lt hlt)]
  have hlast : (names ++ [name]).take names.length = names := List.take_left' rfl
  rw [firstSpellings, List.zipIdx_append, List.filter_append, hfront, List.map_append]
  congr 1
  rw [List.zipIdx_singleton, List.filter_singleton, Nat.zero_add, hlast]
  cases names.all fun earlier => earlier.lowercase != name.lowercase with
  | true => rfl
  | false => rfl

/-- First spellings are a sublist of the names. -/
theorem firstSpellings_sublist (names : List Text) : (firstSpellings names).Sublist names := by
  have hplaces : (names.zipIdx.map Prod.fst) = names := List.zipIdx_map_fst 0 names
  have hsub := (List.filter_sublist (l := names.zipIdx) (p := fun entry =>
    (names.take entry.2).all fun earlier => earlier.lowercase != entry.1.lowercase)).map Prod.fst
  rwa [hplaces] at hsub

namespace IgnoreSet

/-! ## Sets of names -/

/-- Whether a set is what it becomes by adding some names to the empty set. -/
structure IsSetOf (names : List Text) (ignored : IgnoreSet) : Prop where
  /-- The columns are the first spellings. -/
  columns_eq : ignored.columns = firstSpellings names
  /-- No two columns have the same lower-case form. -/
  nodup : (ignored.columns.map Text.lowercase).Nodup
  /-- A column is in the set exactly if one of the names has its lower-case form. -/
  contains_iff : ∀ column,
    ignored.contains column = true ↔ ∃ name ∈ names, name.lowercase = column.lowercase

/-- The empty set is that of no names. -/
theorem isSetOf_empty : IsSetOf [] empty := by
  refine ⟨rfl, List.nodup_nil, ?_⟩
  intro column
  simp

/-- A column is outside of the set exactly if no name has its lower-case form. -/
theorem IsSetOf.contains_eq_false_iff {names : List Text} {ignored : IgnoreSet} (h : IsSetOf names ignored)
    (column : Text) :
    ignored.contains column = false
      ↔ (names.all fun name => name.lowercase != column.lowercase) = true := by
  rw [← Bool.not_eq_true, h.contains_iff]
  simp

/-- **Adding a name** makes the set that of the names and this one. -/
theorem IsSetOf.insert {names : List Text} {ignored : IgnoreSet} (h : IsSetOf names ignored)
    (name : Text) : IsSetOf (names ++ [name]) (ignored.insert name) := by
  have hcontains : ∀ column, (ignored.insert name).contains column = true
      ↔ ∃ other ∈ names ++ [name], other.lowercase = column.lowercase := by
    intro column
    rw [contains_insert, Bool.or_eq_true, h.contains_iff, beq_iff_eq]
    simp [or_and_right, exists_or]
  cases hknown : ignored.contains name with
  | true =>
    -- another spelling of the name is there already
    have hkept : ignored.insert name = ignored := by rw [IgnoreSet.insert, hknown, if_pos rfl]
    have hsame : ¬(names.all fun earlier => earlier.lowercase != name.lowercase) = true := by
      rw [← h.contains_eq_false_iff, hknown]
      decide
    refine ⟨?_, ?_, hcontains⟩
    · rw [hkept, firstSpellings_concat, if_neg hsame, List.append_nil, h.columns_eq]
    · rw [hkept]
      exact h.nodup
  | false =>
    have hcolumns : (ignored.insert name).columns = ignored.columns ++ [name] := by
      rw [IgnoreSet.insert, hknown, if_neg Bool.false_ne_true]
    have hfresh := (h.contains_eq_false_iff name).mp hknown
    refine ⟨?_, ?_, hcontains⟩
    · rw [hcolumns, firstSpellings_concat, if_pos hfresh, h.columns_eq]
    · rw [hcolumns, List.map_append]
      refine List.nodup_append.mpr ⟨h.nodup, List.nodup_singleton _, ?_⟩
      -- the columns of the set do not have the lower-case form of a name outside of it
      rintro form hform other hother rfl
      obtain ⟨column, hcolumn, rfl⟩ := List.mem_map.mp hform
      have hin : ignored.contains name = true := by
        apply List.any_eq_true.mpr
        exact ⟨column, hcolumn, beq_iff_eq.mpr (by simpa using hother)⟩
      rw [hknown] at hin
      cases hin

/-- **Adding names one after the other** makes the set that of all of them. -/
theorem IsSetOf.foldl_insert {names : List Text} {ignored : IgnoreSet} (h : IsSetOf names ignored)
    (more : List Text) : IsSetOf (names ++ more) (more.foldl IgnoreSet.insert ignored) := by
  induction more generalizing names ignored with
  | nil => rwa [List.append_nil]
  | cons name rest ih =>
    have hrest := ih (h.insert name)
    rwa [List.append_assoc, List.singleton_append] at hrest

/-- The set of a list of names. -/
theorem isSetOf_ofList (names : List Text) : IsSetOf names (ofList names) :=
  isSetOf_empty.foldl_insert names

/-! ## What is left out -/

/-- Of an assignment those entries stay to whose column no name has the same lower-case form. -/
theorem IsSetOf.keep_eq {names : List Text} {ignored : IgnoreSet} (h : IsSetOf names ignored)
    (entries : Assignment) :
    entries.keep ignored
      = entries.filter fun entry => names.all fun name => name.lowercase != entry.column.lowercase := by
  apply List.filter_congr
  intro entry _
  rw [Bool.eq_iff_iff, Bool.not_eq_true', h.contains_eq_false_iff]

/-- What is compiled depends on the entries that stay and on nothing else of the set. -/
theorem compile_eq_compile_keep (dialect : Dialect) (ignored : IgnoreSet) (entries : Assignment) :
    Assignment.compile dialect ignored entries
      = Assignment.compile dialect .empty (entries.keep ignored) := by
  rw [Assignment.compile, Assignment.compile, Assignment.keep_empty]

/-- **The law of ignored columns.**  The set of a list of names, to which any more can be added, keeps the first
spelling of each name in order, so that no two of its columns have the same lower-case form; it holds the columns
that have the lower-case form of some name; and an assignment is compiled as one without the entries for these
columns, whatever the order of the names. -/
theorem ofList_law (names : List Text) :
    (ofList names).columns = firstSpellings names
    ∧ (firstSpellings names).Sublist names
    ∧ ((ofList names).columns.map Text.lowercase).Nodup
    ∧ (∀ more : List Text, more.foldl insert (ofList names) = ofList (names ++ more))
    ∧ (∀ column, (ofList names).contains column = true
        ↔ ∃ name ∈ names, name.lowercase = column.lowercase)
    ∧ (∀ (dialect : Dialect) (entries : Assignment),
        Assignment.compile dialect (ofList names) entries
          = Assignment.compile dialect .empty (entries.filter fun entry =>
              names.all fun name => name.lowercase != entry.column.lowercase))
    ∧ ∀ other : List Text, other.Perm names → ∀ (dialect : Dialect) (entries : Assignment),
        Assignment.compile dialect (ofList other) entries
          = Assignment.compile dialect (ofList names) entries := by
  have hset := isSetOf_ofList names
  refine ⟨hset.columns_eq, firstSpellings_sublist names, hset.nodup, ?_, hset.contains_iff, ?_, ?_⟩
  · intro more
    rw [ofList, ofList, List.foldl_append]
  · intro dialect entries
    rw [compile_eq_compile_keep, hset.keep_eq]
  · intro other hperm dialect entries
    rw [compile_eq_compile_keep, compile_eq_compile_keep dialect (ofList names), hset.keep_eq,
      (isSetOf_ofList other).keep_eq]
    congr 1
    apply List.filter_congr
    intro entry _
    exact hperm.all_eq

/-- The same spellings in two orders: other ones are kept, and the same entries are left out. -/
theorem ofList_streets :
    (ofList ["Id".toList, "ΟΔΟΣ".toList, "ID".toList, "οδος".toList]).columns
      = ["Id".toList, "ΟΔΟΣ".toList]
    ∧ (ofList ["οδος".toList, "ID".toList, "Id".toList, "ΟΔΟΣ".toList]).columns
      = ["οδος".toList, "ID".toList]
    ∧ ∀ (dialect : Dialect) (entries : Assignment),
      Assignment.compile dialect (ofList ["οδος".toList, "ID".toList, "Id".toList, "ΟΔΟΣ".toList]) entries
        = Assignment.compile dialect (ofList ["Id".toList, "ΟΔΟΣ".toList, "ID".toList, "οδος".toList])
          entries := by
  have hperm : ["οδος".toList, "ID".toList, "Id".toList, "ΟΔΟΣ".toList].Perm
      ["Id".toList, "ΟΔΟΣ".toList, "ID".toList, "οδος".toList] := by
    decide
  refine ⟨?_, ?_, (ofList_law _).2.2.2.2.2.2 _ hperm⟩
  · rw [(ofList_law _).1]
    decide +kernel
  · rw [(ofList_law _).1]
    decide +kernel

end IgnoreSet

end BulkDml
