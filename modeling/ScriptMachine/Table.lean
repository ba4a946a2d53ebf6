namespace ScriptMachine

def putEntry {α : Type} (name : String) (v : α) : List (String × α) → List (String × α)
  | [] => [(name, v)]
  | (k, x) :: rest => if k = name then (k, v) :: rest else (k, x) :: putEntry name v rest

def findEntry {α : Type} (name : String) : List (String × α) → Option α
  | [] => none
  | (k, x) :: rest => if k = name then some x else findEntry name rest

theorem findEntry_putEntry {α : Type} (name other : String) (v : α) (l : List (String × α)) :
    findEntry other (putEntry name v l) = if other = name then some v else findEntry other l := by
  induction l with
  | nil => grind [putEntry, findEntry]
  | cons e rest ih => grind [putEntry, findEntry]

theorem map_fst_putEntry {α : Type} (name : String) (v : α) (l : List (String × α)) :
    (putEntry name v l).map Prod.fst =
      if name ∈ l.map Prod.fst then l.map Prod.fst else l.map Prod.fst ++ [name] := by
  induction l with
  | nil => simp [putEntry]
  | cons e rest ih =>
    obtain ⟨k, x⟩ := e
    by_cases h : k = name
    · simp [putEntry, h]
    · simp only [putEntry, h, if_false, List.map_cons, ih, List.mem_cons, Ne.symm h, false_or]
      split <;> simp

theorem nodup_putEntry {α : Type} (name : String) (v : α) {l : List (String × α)}
    (h : (l.map Prod.fst).Nodup) : ((putEntry name v l).map Prod.fst).Nodup := by
  rw [map_fst_putEntry]
  split
  · exact h
  · rename_i absent
    rw [List.nodup_append]
    exact ⟨h, by simp, by
      intro a ha b hb e
      simp only [List.mem_singleton] at hb
      exact absent (hb ▸ e ▸ ha)⟩

theorem findEntry_eq_some_iff {α : Type} {name : String} {v : α} {l : List (String × α)}
    (h : (l.map Prod.fst).Nodup) : findEntry name l = some v ↔ (name, v) ∈ l := by
  induction l with
  | nil => simp [findEntry]
  | cons e rest ih =>
    obtain ⟨k, x⟩ := e
    rw [List.map_cons, List.nodup_cons] at h
    by_cases hk : k = name
    · subst hk
      -- a second entry of the name would repeat it
      have habsent : (k, v) ∉ rest := fun hmem => h.1 (List.mem_map.2 ⟨_, hmem, rfl⟩)
      simp [findEntry, habsent, eq_comm]
    · simp [findEntry, hk, Ne.symm hk, ih h.2]

/-- Values by name, in order of first insertion. -/
structure Table (α : Type) where
  entries : List (String × α)
  nodup : (entries.map Prod.fst).Nodup

namespace Table

variable {α β : Type}

def empty : Table α :=
  ⟨[], List.nodup_nil⟩

instance : Inhabited (Table α) := ⟨empty⟩

def names (t : Table α) : List String :=
  t.entries.map Prod.fst

def values (t : Table α) : List α :=
  t.entries.map Prod.snd

def size (t : Table α) : Nat :=
  t.entries.length

def get? (t : Table α) (name : String) : Option α :=
  findEntry name t.entries

def contains (t : Table α) (name : String) : Bool :=
  (t.get? name).isSome

def insert (t : Table α) (name : String) (v : α) : Table α :=
  ⟨putEntry name v t.entries, nodup_putEntry name v t.nodup⟩

/-- The table with the entries of a list inserted one after the other. -/
def insertAll (t : Table α) : List (String × α) → Table α
  | [] => t
  | (name, v) :: rest => (t.insert name v).insertAll rest

def ofList (l : List (String × α)) : Table α :=
  empty.insertAll l

@[ext] theorem ext {t u : Table α} (h : t.entries = u.entries) : t = u := by
  cases t; cases u; cases h; rfl

theorem names_insert (t : Table α) (name : String) (v : α) :
    (t.insert name v).names = if name ∈ t.names then t.names else t.names ++ [name] :=
  map_fst_putEntry name v t.entries

@[simp] theorem get?_empty (name : String) : (empty : Table α).get? name = none := rfl

theorem get?_insert (t : Table α) (name other : String) (v : α) :
    (t.insert name v).get? other = if other = name then some v else t.get? other :=
  findEntry_putEntry name other v t.entries

theorem get?_eq_some_iff {t : Table α} {name : String} {v : α} :
    t.get? name = some v ↔ (name, v) ∈ t.entries :=
  findEntry_eq_some_iff t.nodup

theorem mem_values_iff {t : Table α} {v : α} : v ∈ t.values ↔ ∃ name, t.get? name = some v := by
  simp [values, get?_eq_some_iff]

end Table

end ScriptMachine
