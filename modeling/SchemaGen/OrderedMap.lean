/-!
# Maps in insertion order

A map from text keys that remembers the order in which keys first arrived: inserting under a key
that is present replaces its value and keeps its place.
-/

namespace SchemaGen

structure OrderedMap (α : Type) where
  entries : List (String × α)
  deriving Repr, DecidableEq

namespace OrderedMap

variable {α β : Type}

def empty : OrderedMap α := ⟨[]⟩

instance : Inhabited (OrderedMap α) := ⟨empty⟩

def keys (map : OrderedMap α) : List String := map.entries.map Prod.fst

def values (map : OrderedMap α) : List α := map.entries.map Prod.snd

def get? (map : OrderedMap α) (key : String) : Option α :=
  (map.entries.find? (·.1 = key)).map Prod.snd

def contains (map : OrderedMap α) (key : String) : Bool := (map.get? key).isSome

def insertEntry (key : String) (value : α) : List (String × α) → List (String × α)
  | [] => [(key, value)]
  | entry :: rest =>
    if entry.1 = key then (key, value) :: rest else entry :: insertEntry key value rest

/-- Puts a value under a key: in the key's place if it has one, else at the end. -/
def insert (map : OrderedMap α) (key : String) (value : α) : OrderedMap α :=
  ⟨insertEntry key value map.entries⟩

def insertAll (map : OrderedMap α) (pairs : List (String × α)) : OrderedMap α :=
  pairs.foldl (fun acc pair => acc.insert pair.1 pair.2) map

def ofList (pairs : List (String × α)) : OrderedMap α := empty.insertAll pairs

def update (first second : OrderedMap α) : OrderedMap α := first.insertAll second.entries

theorem insertAll_append (map : OrderedMap α) (first second : List (String × α)) :
    map.insertAll (first ++ second) = (map.insertAll first).insertAll second := by
  simp [insertAll, List.foldl_append]

theorem find?_insertEntry (key other : String) (value : α) (entries : List (String × α)) :
    ((insertEntry key value entries).find? (·.1 = other)).map Prod.snd =
      if other = key then some value else (entries.find? (·.1 = other)).map Prod.snd := by
  induction entries with
  | nil =>
    by_cases h : other = key
    · simp [insertEntry, h]
    · simp [insertEntry, h, Ne.symm h]
  | cons entry rest ih =>
    obtain ⟨name, stored⟩ := entry
    by_cases hn : name = key
    · subst hn
      by_cases h : other = name
      · simp [insertEntry, h]
      · simp [insertEntry, h, Ne.symm h]
    · by_cases ho : name = other
      · subst ho
        simp [insertEntry, hn]
      · simp [insertEntry, hn, ho, ih]

@[simp]
theorem get?_insert (map : OrderedMap α) (key other : String) (value : α) :
    (map.insert key value).get? other = if other = key then some value else map.get? other :=
  find?_insertEntry key other value map.entries

end OrderedMap

end SchemaGen
