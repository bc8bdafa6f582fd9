/-!
# Tables

Finite maps in order of insertion. Writing a key that is present changes its value and keeps its
place; writing a new key puts it at the end.
-/

namespace QueryTemplate

variable {κ α : Type} [DecidableEq κ]

/-- A finite map as its entries in order of insertion. -/
abbrev Table (κ α : Type) := List (κ × α)

namespace Table

def keys (t : Table κ α) : List κ := t.map Prod.fst

def get? (t : Table κ α) (key : κ) : Option α :=
  match t with
  | [] => none
  | (k, v) :: rest => if k = key then some v else get? rest key

def set (t : Table κ α) (key : κ) (value : α) : Table κ α :=
  match t with
  | [] => [(key, value)]
  | (k, v) :: rest => if k = key then (k, value) :: rest else (k, v) :: set rest key value

def ofEntries (entries : List (κ × α)) : Table κ α :=
  entries.foldl (fun t entry => t.set entry.1 entry.2) []

theorem get?_set (t : Table κ α) (key other : κ) (value : α) :
    (t.set key value).get? other = if key = other then some value else t.get? other := by
  induction t with
  | nil => rfl
  | cons entry rest ih =>
    obtain ⟨k, v⟩ := entry
    by_cases h : k = key
    · subst h
      by_cases h' : k = other <;> simp [set, get?, h']
    · by_cases h' : k = other
      · subst h'
        simp [set, get?, h, Ne.symm h]
      · simp [set, get?, h, h', ih]

theorem keys_set (t : Table κ α) (key : κ) (value : α) :
    (t.set key value).keys = if key ∈ t.keys then t.keys else t.keys ++ [key] := by
  induction t with
  | nil => simp [set, keys]
  | cons entry rest ih =>
    obtain ⟨k, v⟩ := entry
    by_cases h : k = key
    · simp [set, keys, h]
    · simp only [keys] at ih
      by_cases hm : key ∈ rest.map Prod.fst <;> simp_all [set, keys, Ne.symm h]

theorem nodup_keys_set {t : Table κ α} (h : t.keys.Nodup) (key : κ) (value : α) :
    (t.set key value).keys.Nodup := by
  rw [keys_set]
  split
  · exact h
  · rename_i hk
    refine List.nodup_append.2 ⟨h, by simp, ?_⟩
    intro a ha b hb hab
    exact hk (List.mem_singleton.1 hb ▸ hab ▸ ha)

theorem get?_eq_none_iff (t : Table κ α) (key : κ) : t.get? key = none ↔ key ∉ t.keys := by
  induction t with
  | nil => simp [get?, keys]
  | cons entry rest ih =>
    obtain ⟨k, v⟩ := entry
    by_cases h : k = key
    · simp [get?, keys, h]
    · simp_all [get?, keys, Ne.symm h]

end Table

end QueryTemplate
