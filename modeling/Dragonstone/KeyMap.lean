/-
# Finite maps in order of insertion

A map from strings to values that lists its keys in the order in which they were first put.
Replacing a value keeps the place of its key; a key that is erased and put again comes last.
-/

namespace Dragonstone

/-- A finite map with string keys. -/
structure KeyMap (α : Type) where
  entries : List (String × α) := []
  deriving Repr

namespace KeyMap

variable {α : Type}

def get? (m : KeyMap α) (key : String) : Option α :=
  (m.entries.find? fun e => e.1 == key).map Prod.snd

def contains (m : KeyMap α) (key : String) : Bool :=
  (m.get? key).isSome

/-- The list of entries with the value of one key replaced or added at the end. -/
def putEntry (key : String) (value : α) : List (String × α) → List (String × α)
  | [] => [(key, value)]
  | e :: rest => if e.1 == key then (key, value) :: rest else e :: putEntry key value rest

def put (m : KeyMap α) (key : String) (value : α) : KeyMap α :=
  ⟨putEntry key value m.entries⟩

def erase (m : KeyMap α) (key : String) : KeyMap α :=
  ⟨m.entries.filter fun e => e.1 != key⟩

def keys (m : KeyMap α) : List String :=
  m.entries.map Prod.fst

def ofList (entries : List (String × α)) : KeyMap α :=
  entries.foldl (fun m e => m.put e.1 e.2) {}

@[simp] theorem get?_empty (key : String) : ({} : KeyMap α).get? key = none :=
  rfl

/-- A value that was put is found under its key, and no other key changes. -/
theorem get?_put (m : KeyMap α) (key other : String) (value : α) :
    (m.put key value).get? other = if other = key then some value else m.get? other := by
  obtain ⟨entries⟩ := m
  simp only [put, get?]
  induction entries with
  | nil =>
    by_cases h : other = key
    · subst h; simp [putEntry]
    · have h' : ¬ key = other := fun e => h e.symm
      simp [putEntry, h, h']
  | cons e rest ih =>
    obtain ⟨k, v⟩ := e
    by_cases hk : k = key
    · subst hk
      by_cases h : other = k
      · subst h; simp [putEntry]
      · have h' : ¬ k = other := fun e => h e.symm
        simp [putEntry, h, h']
    · by_cases h : k = other
      · subst h; simp [putEntry, hk]
      · simpa [putEntry, hk, h] using ih

/-- A key that was erased has no value, and no other key changes. -/
theorem get?_erase (m : KeyMap α) (key other : String) :
    (m.erase key).get? other = if other = key then none else m.get? other := by
  obtain ⟨entries⟩ := m
  simp only [erase, get?]
  induction entries with
  | nil => simp
  | cons e rest ih =>
    obtain ⟨k, v⟩ := e
    by_cases hk : k = key
    · subst hk
      by_cases h : other = k
      · subst h; simp
      · have h' : ¬ k = other := fun e => h e.symm
        simpa [h, h'] using ih
    · by_cases h : k = other
      · subst h; simp [hk]
      · simpa [hk, h] using ih

/-- A new value under a key that is there leaves the list of keys as it is. -/
theorem keys_put_of_mem {m : KeyMap α} {key : String} (known : key ∈ m.keys) (value : α) :
    (m.put key value).keys = m.keys := by
  obtain ⟨entries⟩ := m
  simp only [keys, put] at known ⊢
  induction entries with
  | nil => cases known
  | cons e rest ih =>
    obtain ⟨k, v⟩ := e
    by_cases hk : k = key
    · subst hk; simp [putEntry]
    · have later : key ∈ rest.map Prod.fst := by
        simpa [show ¬ key = k from fun h => hk h.symm] using known
      simpa [putEntry, hk] using ih later

/-- The keys are those under which there is a value. -/
theorem mem_keys_iff {m : KeyMap α} {key : String} : key ∈ m.keys ↔ (m.get? key).isSome := by
  simp only [keys, get?, List.mem_map, Option.isSome_map, List.find?_isSome, beq_iff_eq]

end KeyMap

end Dragonstone
