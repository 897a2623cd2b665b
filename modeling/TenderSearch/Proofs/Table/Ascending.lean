import Mathlib.Data.List.Nodup
import Mathlib.Data.List.Perm.Subperm
import TenderSearch.Table

/-!
# Ascending tables

Inserting, erasing and extending keep the keys of a table in strictly ascending
order. A table that is extended holds the last entry of every key; extended by
an ascending one, it holds the entries of that one, and its own under all other
keys. Entries with distinct keys make the same table in any order.
-/

namespace TenderSearch.Table

variable {κ α : Type} [DecidableEq κ]

/-! ## Lookups -/

/-- Erasing under one key leaves the others alone. -/
theorem get?_erase_of_ne {key other : κ} (hne : key ≠ other) (table : List (κ × α)) :
    get? other (erase key table) = get? other table := by
  induction table with
  | nil => rfl
  | cons entry rest ih =>
      obtain ⟨k, v⟩ := entry
      unfold erase
      split
      next heq => rw [ih, get?_cons, if_neg (heq ▸ hne)]
      next => rw [get?_cons, get?_cons, ih]

theorem get?_erase (key other : κ) (table : List (κ × α)) :
    get? other (erase key table) = if other = key then none else get? other table := by
  by_cases heq : other = key
  · rw [if_pos heq, heq, get?_erase_self]
  · rw [if_neg heq, get?_erase_of_ne (Ne.symm heq)]

theorem get?_eq_none {key : κ} {table : List (κ × α)} (hkeys : ∀ entry ∈ table, entry.1 ≠ key) :
    get? key table = none := by
  cases hget : get? key table with
  | none => rfl
  | some value => exact absurd rfl (hkeys _ (mem_of_get? hget))

theorem has_iff_mem_keys {key : κ} {table : List (κ × α)} :
    has key table = true ↔ key ∈ table.map Prod.fst := by
  induction table with
  | nil => simp [has]
  | cons entry rest ih =>
      obtain ⟨k, v⟩ := entry
      rw [has, get?_cons, List.map_cons, List.mem_cons]
      by_cases heq : k = key
      · simp [heq]
      · rw [if_neg heq, ← has, ih]
        simp [Ne.symm heq]

section Extend

variable [LT κ] [DecidableLT κ]

/-- An entry may be replaced when a table is extended, but its key stays. -/
theorem has_extend {key : κ} {table : List (κ × α)} (hhas : has key table = true)
    (entries : List (κ × α)) : has key (extend table entries) = true := by
  induction entries generalizing table with
  | nil => exact hhas
  | cons entry rest ih =>
      obtain ⟨k, v⟩ := entry
      apply ih
      by_cases heq : k = key
      · rw [heq, has, get?_insert_self]
        rfl
      · rw [has, get?_insert_of_ne heq]
        exact hhas

theorem has_extend_of_mem {entry : κ × α} {entries : List (κ × α)} (hmem : entry ∈ entries)
    (table : List (κ × α)) : has entry.1 (extend table entries) = true := by
  induction entries generalizing table with
  | nil => exact nomatch hmem
  | cons first rest ih =>
      rw [extend]
      rcases List.mem_cons.mp hmem with rfl | hrest
      · apply has_extend
        rw [has, get?_insert_self]
        rfl
      · exact ih hrest _

/-- What is found in an extended table is the last entry of its key, or was in
the table before. -/
theorem exists_last_of_get?_extend {key : κ} {value : α} {table entries : List (κ × α)}
    (hget : get? key (extend table entries) = some value) :
    get? key table = some value ∨ ∃ before after, entries = before ++ (key, value) :: after ∧
      ∀ entry ∈ after, entry.1 ≠ key := by
  by_cases hlater : ∃ entry ∈ entries, entry.1 = key
  · refine .inr ?_
    induction entries generalizing table with
    | nil => exact absurd hlater (by simp)
    | cons first rest ih =>
        obtain ⟨k, v⟩ := first
        by_cases hrest : ∃ entry ∈ rest, entry.1 = key
        · obtain ⟨before, after, rfl, hafter⟩ := ih hget hrest
          exact ⟨(k, v) :: before, after, rfl, hafter⟩
        · -- the first entry is the last one with the key
          have hkeys : ∀ entry ∈ rest, entry.1 ≠ key := fun entry hmem heq =>
            hrest ⟨entry, hmem, heq⟩
          have hkey : k = key := by
            obtain ⟨entry, hmem, heq⟩ := hlater
            rcases List.mem_cons.mp hmem with rfl | hmem
            · exact heq
            · exact absurd heq (hkeys entry hmem)
          subst hkey
          rw [extend, get?_extend_of_not_mem fun w hmem => hkeys _ hmem rfl, get?_insert_self,
            Option.some.injEq] at hget
          exact ⟨[], rest, by rw [hget, List.nil_append], hkeys⟩
  · have hkeys : ∀ w, (key, w) ∉ entries := fun w hmem => hlater ⟨_, hmem, rfl⟩
    exact .inl (by rwa [get?_extend_of_not_mem hkeys] at hget)

theorem extend_append (table first second : List (κ × α)) :
    extend table (first ++ second) = extend (extend table first) second := by
  induction first generalizing table with
  | nil => rfl
  | cons entry rest ih => exact ih (insert entry.1 entry.2 table)

/-- A table of a list holds the last entry of every key. -/
theorem get?_ofList_eq_some_iff {key : κ} {value : α} {entries : List (κ × α)} :
    get? key (ofList entries) = some value ↔ ∃ before after,
      entries = before ++ (key, value) :: after ∧ ∀ entry ∈ after, entry.1 ≠ key := by
  constructor
  · intro hget
    exact (exists_last_of_get?_extend hget).resolve_left (by simp)
  · rintro ⟨before, after, rfl, hafter⟩
    have hkeys : ∀ other, (key, other) ∉ after := fun other hmem => hafter _ hmem rfl
    rw [ofList, extend_append, extend, get?_extend_of_not_mem hkeys, get?_insert_self]

theorem has_ofList_iff {key : κ} {entries : List (κ × α)} :
    has key (ofList entries) = true ↔ key ∈ entries.map Prod.fst := by
  constructor
  · intro hhas
    obtain ⟨value, hget⟩ := Option.isSome_iff_exists.mp hhas
    obtain ⟨before, after, rfl, -⟩ := get?_ofList_eq_some_iff.mp hget
    simp
  · intro hmem
    obtain ⟨entry, hentry, rfl⟩ := List.mem_map.mp hmem
    exact has_extend_of_mem hentry []

end Extend

theorem get?_filter (keeps : κ → Bool) (key : κ) (table : List (κ × α)) :
    get? key (table.filter fun entry => keeps entry.1) =
      if keeps key then get? key table else none := by
  induction table with
  | nil => simp
  | cons entry rest ih =>
      obtain ⟨k, v⟩ := entry
      rw [List.filter_cons, get?_cons]
      by_cases heq : k = key
      · subst heq
        cases hk : keeps k <;> simp [get?_cons, ih, hk]
      · cases hk : keeps k <;> simp [get?_cons, ih, heq]

/-! ## Order -/

variable [LT κ]

omit [DecidableEq κ] in
theorem ascending_cons_iff {entry : κ × α} {rest : List (κ × α)} :
    Ascending (entry :: rest) ↔ (∀ other ∈ rest, entry.1 < other.1) ∧ Ascending rest :=
  List.pairwise_cons

theorem Ascending.erase {table : List (κ × α)} (htable : Ascending table) (key : κ) :
    Ascending (erase key table) := by
  induction table with
  | nil => exact htable
  | cons entry rest ih =>
      obtain ⟨hfirst, hrest⟩ := ascending_cons_iff.mp htable
      unfold Table.erase
      split
      next => exact ih hrest
      next =>
        apply ascending_cons_iff.mpr
        refine ⟨?_, ih hrest⟩
        intro other hother
        exact hfirst other (mem_erase.mp hother).1

omit [DecidableEq κ] in
theorem Ascending.filter {table : List (κ × α)} (htable : Ascending table)
    (keeps : κ × α → Bool) : Ascending (table.filter keeps) :=
  List.Pairwise.filter keeps htable

theorem Ascending.modify {table : List (κ × α)} (htable : Ascending table) (key : κ)
    (f : α → α) : Ascending (modify key f table) := by
  have hkeys : (Table.modify key f table).map Prod.fst = table.map Prod.fst := by
    induction table with
    | nil => rfl
    | cons entry rest ih =>
        obtain ⟨k, v⟩ := entry
        by_cases heq : k = key
        · simp [Table.modify, heq]
        · simp [Table.modify, heq, ih (ascending_cons_iff.mp htable).2]
  rw [Ascending, ← List.pairwise_map (f := Prod.fst)] at htable ⊢
  rwa [hkeys]

variable [LE κ] [Std.LawfulOrderLT κ]

/-- A key has only one entry. -/
theorem Ascending.get?_of_mem {table : List (κ × α)} (htable : Ascending table) {key : κ}
    {value : α} (hmem : (key, value) ∈ table) : get? key table = some value := by
  induction table with
  | nil => exact nomatch hmem
  | cons entry rest ih =>
      obtain ⟨k, v⟩ := entry
      obtain ⟨hfirst, hrest⟩ := ascending_cons_iff.mp htable
      rw [get?_cons]
      rcases List.mem_cons.mp hmem with heq | hlater
      · obtain ⟨rfl, rfl⟩ := Prod.mk.inj heq
        exact if_pos rfl
      · rw [if_neg (Std.ne_of_lt (hfirst _ hlater)), ih hrest hlater]

omit [DecidableEq κ] in
theorem Ascending.nodup_keys {table : List (κ × α)} (htable : Ascending table) :
    (table.map Prod.fst).Nodup := by
  rw [List.Nodup, List.pairwise_map]
  apply htable.imp
  intro first second hlt
  exact Std.ne_of_lt hlt

theorem Ascending.get?_rest {entry : κ × α} {rest : List (κ × α)}
    (htable : Ascending (entry :: rest)) (key : κ) :
    get? key rest = if entry.1 = key then none else get? key (entry :: rest) := by
  obtain ⟨k, v⟩ := entry
  obtain ⟨hfirst, -⟩ := ascending_cons_iff.mp htable
  split
  next heq =>
    apply get?_eq_none
    intro other hother hkey
    exact Std.ne_of_lt (hfirst other hother) (heq.trans hkey.symm)
  next hne => rw [get?_cons, if_neg hne]

variable [DecidableLT κ]

/-- The entries of an ascending table win over those of the table it extends. -/
theorem get?_extend {table entries : List (κ × α)} (hentries : Ascending entries) (key : κ) :
    get? key (extend table entries) = (get? key entries).or (get? key table) := by
  induction entries generalizing table with
  | nil => rfl
  | cons entry rest ih =>
      obtain ⟨k, v⟩ := entry
      obtain ⟨hfirst, hrest⟩ := ascending_cons_iff.mp hentries
      rw [extend, ih hrest, get?_cons]
      by_cases heq : k = key
      · -- no later entry has the key of the first one
        subst heq
        have hnone : get? k rest = none :=
          get?_eq_none fun other hother => (Std.ne_of_lt (hfirst other hother)).symm
        rw [hnone, get?_insert_self, if_pos rfl]
        rfl
      · rw [get?_insert_of_ne heq, if_neg heq]

/-- The entries of an ascending table in the place of one entry. -/
theorem get?_extend_erase {entries : List (κ × α)} (hentries : Ascending entries)
    (replaced key : κ) (table : List (κ × α)) :
    get? key (extend (erase replaced table) entries) =
      (get? key entries).or (if key = replaced then none else get? key table) := by
  rw [get?_extend hentries, get?_erase]

variable [Std.IsLinearOrder κ]

omit [DecidableLT κ] in
/-- The first key of an ascending table is the least one. -/
theorem Ascending.not_lt_of_get? {k : κ} {v : α} {rest : List (κ × α)}
    (htable : Ascending ((k, v) :: rest)) {key : κ} {value : α}
    (hget : get? key ((k, v) :: rest) = some value) : ¬ key < k := by
  intro hlt
  rcases List.mem_cons.mp (mem_of_get? hget) with heq | hrest
  · exact Std.ne_of_lt hlt (Prod.mk.inj heq).1
  · exact Std.lt_irrefl (Std.lt_trans hlt ((ascending_cons_iff.mp htable).1 _ hrest))

omit [DecidableLT κ] in
/-- Ascending tables are equal if they have the same values under all keys. -/
theorem Ascending.ext {first second : List (κ × α)} (hfirst : Ascending first)
    (hsecond : Ascending second) (hget : ∀ key, get? key first = get? key second) :
    first = second := by
  induction first generalizing second with
  | nil =>
      cases second with
      | nil => rfl
      | cons entry rest => simpa [get?] using hget entry.1
  | cons entry rest ih =>
      obtain ⟨k, v⟩ := entry
      cases second with
      | nil => simpa [get?] using hget k
      | cons other later =>
          obtain ⟨l, w⟩ := other
          have hk : get? k ((l, w) :: later) = some v := by rw [← hget, get?_cons, if_pos rfl]
          have hl : get? l ((k, v) :: rest) = some w := by rw [hget, get?_cons, if_pos rfl]
          have hkey : k = l :=
            Std.le_antisymm (Std.not_lt.mp (hfirst.not_lt_of_get? hl))
              (Std.not_lt.mp (hsecond.not_lt_of_get? hk))
          subst hkey
          rw [get?_cons, if_pos rfl, Option.some.injEq] at hk
          subst hk
          have hrest : ∀ key, get? key rest = get? key later := by
            intro key
            rw [hfirst.get?_rest, hsecond.get?_rest, hget]
          rw [ih (ascending_cons_iff.mp hfirst).2 (ascending_cons_iff.mp hsecond).2 hrest]

theorem Ascending.insert {table : List (κ × α)} (htable : Ascending table) (key : κ)
    (value : α) : Ascending (insert key value table) := by
  induction table with
  | nil => exact List.pairwise_singleton _ _
  | cons entry rest ih =>
      obtain ⟨k, v⟩ := entry
      obtain ⟨hfirst, hrest⟩ := ascending_cons_iff.mp htable
      unfold Table.insert
      split
      next heq => exact ascending_cons_iff.mpr ⟨heq ▸ hfirst, hrest⟩
      next hne =>
        split
        next hlt =>
          apply ascending_cons_iff.mpr
          refine ⟨?_, htable⟩
          intro other hother
          rcases List.mem_cons.mp hother with rfl | hmem
          · exact hlt
          · exact Std.lt_trans hlt (hfirst other hmem)
        next hlt =>
          apply ascending_cons_iff.mpr
          refine ⟨?_, ih hrest⟩
          intro other hother
          rcases eq_or_mem_of_mem_insert hother with rfl | hmem
          · exact Std.lt_of_le_of_ne (Std.not_lt.mp hlt) hne
          · exact hfirst other hmem

theorem Ascending.extend {table : List (κ × α)} (htable : Ascending table)
    (entries : List (κ × α)) : Ascending (extend table entries) := by
  induction entries generalizing table with
  | nil => exact htable
  | cons entry rest ih => exact ih (htable.insert entry.1 entry.2)

/-! ## Distinct keys -/

theorem ascending_ofList (entries : List (κ × α)) : Ascending (ofList entries) :=
  Ascending.extend List.Pairwise.nil entries

omit [LE κ] [Std.LawfulOrderLT κ] [Std.IsLinearOrder κ] in
theorem mem_of_mem_ofList {entry : κ × α} {entries : List (κ × α)}
    (hmem : entry ∈ ofList entries) : entry ∈ entries :=
  (mem_or_mem_of_mem_extend hmem).resolve_left List.not_mem_nil

/-- A table of entries with distinct keys holds all of them. -/
theorem perm_ofList {entries : List (κ × α)} (hkeys : (entries.map Prod.fst).Nodup) :
    (ofList entries).Perm entries := by
  have htable : (ofList entries).Nodup := (ascending_ofList entries).nodup_keys.of_map _
  apply (List.perm_ext_iff_of_nodup htable (hkeys.of_map _)).mpr
  rintro ⟨key, value⟩
  refine ⟨mem_of_mem_ofList, ?_⟩
  intro hmem
  apply mem_of_get?
  apply get?_extend_of_mem hmem
  intro other hother
  exact congrArg Prod.snd (List.inj_on_of_nodup_map hkeys hother hmem rfl)

/-- The order of entries with distinct keys makes no difference. -/
theorem ofList_eq_of_perm {entries others : List (κ × α)} (hperm : entries.Perm others)
    (hkeys : (entries.map Prod.fst).Nodup) : ofList entries = ofList others := by
  have hothers : (others.map Prod.fst).Nodup := (hperm.map Prod.fst).nodup_iff.mp hkeys
  have htables : (ofList entries).Perm (ofList others) :=
    ((perm_ofList hkeys).trans hperm).trans (perm_ofList hothers).symm
  apply htables.eq_of_pairwise _ (ascending_ofList entries) (ascending_ofList others)
  intro first second _ _ hlt hgt
  exact absurd (Std.lt_trans hlt hgt) Std.lt_irrefl

/-- Where two entries have one key, the table has fewer entries than its list. -/
theorem length_ofList_lt {entries : List (κ × α)} (hkeys : ¬ (entries.map Prod.fst).Nodup) :
    (ofList entries).length < entries.length := by
  have hnodup : ((ofList entries).map Prod.fst).Nodup := (ascending_ofList entries).nodup_keys
  have hsub : ((ofList entries).map Prod.fst).Subperm (entries.map Prod.fst) :=
    List.subperm_of_subset hnodup (List.map_subset _ fun _ => mem_of_mem_ofList)
  by_contra hle
  have hperm := hsub.perm_of_length_le (by simpa using hle)
  exact hkeys (hperm.nodup_iff.mp hnodup)

end TenderSearch.Table
