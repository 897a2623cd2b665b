/-!
# Tables in ascending key order

A table is a list of entries whose keys ascend strictly. Looking up finds the
first entry of a key, inserting keeps the order and replaces an entry of the
same key, and a table built from a list keeps the last entry of every key.
-/

namespace TenderSearch.Table

variable {κ α : Type} [DecidableEq κ]

/-- The value of the first entry under a key. -/
def get? (key : κ) : List (κ × α) → Option α
  | [] => none
  | (k, v) :: rest => if k = key then some v else get? key rest

/-- Whether some entry has the key. -/
def has (key : κ) (table : List (κ × α)) : Bool :=
  (get? key table).isSome

def erase (key : κ) : List (κ × α) → List (κ × α)
  | [] => []
  | (k, v) :: rest => if k = key then erase key rest else (k, v) :: erase key rest

/-- Replaces the value under a key, where there is one. -/
def modify (key : κ) (f : α → α) : List (κ × α) → List (κ × α)
  | [] => []
  | (k, v) :: rest => if k = key then (k, f v) :: rest else (k, v) :: modify key f rest

variable [LT κ] [DecidableLT κ]

/-- Puts a value under a key, at the key's place in the order. -/
def insert (key : κ) (value : α) : List (κ × α) → List (κ × α)
  | [] => [(key, value)]
  | (k, v) :: rest =>
      if k = key then (key, value) :: rest
      else if key < k then (key, value) :: (k, v) :: rest
      else (k, v) :: insert key value rest

/-- Inserts entries one after the other, so that a later one wins. -/
def extend (table : List (κ × α)) : List (κ × α) → List (κ × α)
  | [] => table
  | (k, v) :: rest => extend (insert k v table) rest

def ofList (entries : List (κ × α)) : List (κ × α) :=
  extend [] entries

def Ascending (table : List (κ × α)) : Prop :=
  table.Pairwise fun a b => a.1 < b.1

omit [LT κ] [DecidableLT κ] in
@[simp] theorem get?_nil (key : κ) : get? key ([] : List (κ × α)) = none := rfl

omit [LT κ] [DecidableLT κ] in
theorem get?_cons (key k : κ) (v : α) (rest : List (κ × α)) :
    get? key ((k, v) :: rest) = if k = key then some v else get? key rest := rfl

@[simp] theorem get?_insert_self (key : κ) (value : α) (table : List (κ × α)) :
    get? key (insert key value table) = some value := by
  induction table with
  | nil => simp [insert, get?]
  | cons entry rest ih =>
      obtain ⟨k, v⟩ := entry
      unfold insert
      split
      · simp [get?]
      · split
        · simp [get?]
        · next hne _ => simpa [get?, hne] using ih

/-- Inserting under one key leaves the others alone. -/
theorem get?_insert_of_ne {key other : κ} (hne : key ≠ other) (value : α)
    (table : List (κ × α)) :
    get? other (insert key value table) = get? other table := by
  induction table with
  | nil => simp [insert, get?, hne]
  | cons entry rest ih =>
      obtain ⟨k, v⟩ := entry
      unfold insert
      split
      · next heq => simp [get?, heq, hne]
      · split
        · simp [get?, hne]
        · simp only [get?, ih]

omit [LT κ] [DecidableLT κ] in
@[simp] theorem get?_erase_self (key : κ) (table : List (κ × α)) :
    get? key (erase key table) = none := by
  induction table with
  | nil => rfl
  | cons entry rest ih =>
      obtain ⟨k, v⟩ := entry
      unfold erase
      split
      · exact ih
      · next hne => simpa [get?, hne] using ih

omit [LT κ] [DecidableLT κ] in
/-- What is found under a key is an entry of the table. -/
theorem mem_of_get? {key : κ} {value : α} {table : List (κ × α)}
    (hget : get? key table = some value) : (key, value) ∈ table := by
  induction table with
  | nil => simp at hget
  | cons entry rest ih =>
      obtain ⟨k, v⟩ := entry
      rw [get?_cons] at hget
      split at hget
      next heq =>
        simp only [Option.some.injEq] at hget
        simp [heq, hget]
      next => exact List.mem_cons_of_mem _ (ih hget)

omit [LT κ] [DecidableLT κ] in
theorem mem_erase {key : κ} {entry : κ × α} {table : List (κ × α)} :
    entry ∈ erase key table ↔ entry ∈ table ∧ entry.1 ≠ key := by
  induction table with
  | nil => simp [erase]
  | cons first rest ih =>
      obtain ⟨k, v⟩ := first
      unfold erase
      split
      next heq =>
        rw [ih, List.mem_cons]
        refine ⟨fun ⟨hmem, hne⟩ => ⟨.inr hmem, hne⟩, ?_⟩
        rintro ⟨rfl | hmem, hne⟩
        · exact absurd heq hne
        · exact ⟨hmem, hne⟩
      next hkey =>
        rw [List.mem_cons, ih, List.mem_cons]
        constructor
        · rintro (rfl | ⟨hmem, hne⟩)
          · exact ⟨.inl rfl, hkey⟩
          · exact ⟨.inr hmem, hne⟩
        · rintro ⟨rfl | hmem, hne⟩
          · exact .inl rfl
          · exact .inr ⟨hmem, hne⟩

omit [LT κ] [DecidableLT κ] in
@[simp] theorem get?_modify_self (key : κ) (f : α → α) (table : List (κ × α)) :
    get? key (modify key f table) = (get? key table).map f := by
  induction table with
  | nil => rfl
  | cons entry rest ih =>
      obtain ⟨k, v⟩ := entry
      unfold modify
      split
      next heq => simp [get?, heq]
      next hne => simpa [get?, hne] using ih

omit [LT κ] [DecidableLT κ] in
/-- Modifying under one key leaves the others alone. -/
theorem get?_modify_of_ne {key other : κ} (hne : key ≠ other) (f : α → α)
    (table : List (κ × α)) : get? other (modify key f table) = get? other table := by
  induction table with
  | nil => rfl
  | cons entry rest ih =>
      obtain ⟨k, v⟩ := entry
      unfold modify
      split
      next heq => simp [get?, heq, hne]
      next => simp only [get?, ih]

omit [LT κ] [DecidableLT κ] in
theorem modify_modify (key : κ) (f g : α → α) (table : List (κ × α)) :
    modify key g (modify key f table) = modify key (g ∘ f) table := by
  induction table with
  | nil => rfl
  | cons entry rest ih =>
      obtain ⟨k, v⟩ := entry
      by_cases heq : k = key <;> simp [modify, heq, ih]

omit [LT κ] [DecidableLT κ] in
/-- Modifying adds no entry but one for the modified value. -/
theorem mem_or_eq_of_mem_modify {key : κ} {f : α → α} {entry : κ × α} {table : List (κ × α)}
    (hmem : entry ∈ modify key f table) :
    entry ∈ table ∨ ∃ value, (key, value) ∈ table ∧ entry = (key, f value) := by
  induction table with
  | nil => exact nomatch hmem
  | cons first rest ih =>
      obtain ⟨k, v⟩ := first
      unfold modify at hmem
      split at hmem
      next heq =>
        rcases List.mem_cons.mp hmem with rfl | hmem
        · exact .inr ⟨v, by simp [heq], by rw [heq]⟩
        · exact .inl (List.mem_cons_of_mem _ hmem)
      next =>
        rcases List.mem_cons.mp hmem with rfl | hmem
        · exact .inl List.mem_cons_self
        · refine (ih hmem).imp (List.mem_cons_of_mem _) ?_
          rintro ⟨value, hvalue, rfl⟩
          exact ⟨value, List.mem_cons_of_mem _ hvalue, rfl⟩

/-- Inserting adds no entry but the inserted one. -/
theorem eq_or_mem_of_mem_insert {key : κ} {value : α} {entry : κ × α}
    {table : List (κ × α)} (hmem : entry ∈ insert key value table) :
    entry = (key, value) ∨ entry ∈ table := by
  induction table with
  | nil => exact .inl (List.mem_singleton.mp hmem)
  | cons first rest ih =>
      obtain ⟨k, v⟩ := first
      unfold insert at hmem
      split at hmem
      · exact (List.mem_cons.mp hmem).imp id (List.mem_cons_of_mem _)
      · split at hmem
        · exact List.mem_cons.mp hmem
        · rcases List.mem_cons.mp hmem with rfl | hmem
          · exact .inr List.mem_cons_self
          · exact (ih hmem).imp id (List.mem_cons_of_mem _)

theorem mem_or_mem_of_mem_extend {entry : κ × α} {table entries : List (κ × α)}
    (hmem : entry ∈ extend table entries) : entry ∈ table ∨ entry ∈ entries := by
  induction entries generalizing table with
  | nil => exact .inl hmem
  | cons first rest ih =>
      obtain ⟨k, v⟩ := first
      rcases ih hmem with htable | hrest
      · rcases eq_or_mem_of_mem_insert htable with rfl | htable
        · exact .inr List.mem_cons_self
        · exact .inl htable
      · exact .inr (List.mem_cons_of_mem _ hrest)

/-- Inserting entries of other keys leaves a key alone. -/
theorem get?_extend_of_not_mem {key : κ} {table entries : List (κ × α)}
    (hentries : ∀ value, (key, value) ∉ entries) :
    get? key (extend table entries) = get? key table := by
  induction entries generalizing table with
  | nil => rfl
  | cons first rest ih =>
      obtain ⟨k, v⟩ := first
      have hne : k ≠ key := fun heq => hentries v (heq ▸ List.mem_cons_self)
      have hrest : ∀ value, (key, value) ∉ rest := fun value hmem =>
        hentries value (List.mem_cons_of_mem _ hmem)
      rw [extend, ih hrest, get?_insert_of_ne hne]

/-- Where all entries of a key have one value, that is the value in the end. -/
theorem get?_extend_of_mem {key : κ} {value : α} {table entries : List (κ × α)}
    (hmem : (key, value) ∈ entries) (hsame : ∀ other, (key, other) ∈ entries → other = value) :
    get? key (extend table entries) = some value := by
  induction entries generalizing table with
  | nil => exact nomatch hmem
  | cons first rest ih =>
      obtain ⟨k, v⟩ := first
      have hrest : ∀ other, (key, other) ∈ rest → other = value := fun other hother =>
        hsame other (List.mem_cons_of_mem _ hother)
      by_cases hlater : (key, value) ∈ rest
      · exact ih hlater hrest
      · obtain ⟨rfl, rfl⟩ : key = k ∧ value = v := by
          simpa [hlater] using hmem
        have hnone : ∀ other, (key, other) ∉ rest := fun other hother =>
          hlater (hrest other hother ▸ hother)
        rw [extend, get?_extend_of_not_mem hnone, get?_insert_self]

end TenderSearch.Table
