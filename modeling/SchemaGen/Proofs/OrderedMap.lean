import SchemaGen.OrderedMap

/-!
# Laws of ordered maps

What keys a map has after insertions and in which order, and what is found under a key: the last
value inserted. A map without repeated keys is determined by its keys and by what is found
(`ext_get?`). So a map may be updated by another one where the pairs of the other could have been
inserted one by one (`update_ofList`).
-/

namespace SchemaGen.OrderedMap

variable {α : Type}

-- ---------------------------------------------------------------------------
-- Keys
-- ---------------------------------------------------------------------------

def addKey (keys : List String) (key : String) : List String :=
  if key ∈ keys then keys else keys ++ [key]

theorem keys_insert (map : OrderedMap α) (key : String) (value : α) :
    (map.insert key value).keys = addKey map.keys key := by
  obtain ⟨entries⟩ := map
  simp only [insert, keys]
  induction entries with
  | nil => simp [insertEntry, addKey]
  | cons entry rest ih =>
    by_cases h : entry.1 = key
    · simp [insertEntry, addKey, h]
    · rw [insertEntry, if_neg h, List.map_cons, ih]
      by_cases hr : key ∈ rest.map Prod.fst
      · simp [addKey, hr]
      · simp [addKey, hr, Ne.symm h]

theorem keys_insertAll (map : OrderedMap α) (pairs : List (String × α)) :
    (map.insertAll pairs).keys = (pairs.map Prod.fst).foldl addKey map.keys := by
  induction pairs generalizing map with
  | nil => rfl
  | cons pair more ih =>
    show ((map.insert pair.1 pair.2).insertAll more).keys = _
    rw [ih, keys_insert]
    rfl

theorem nodup_addKey {keys : List String} (h : keys.Nodup) (key : String) :
    (addKey keys key).Nodup := by
  rw [addKey]
  split
  · exact h
  · next hk =>
    refine List.nodup_append.mpr ⟨h, by simp, ?_⟩
    intro other ho last hl he
    rw [List.mem_singleton] at hl
    exact hk (hl ▸ he ▸ ho)

theorem nodup_foldl_addKey {keys : List String} (h : keys.Nodup) (more : List String) :
    (more.foldl addKey keys).Nodup := by
  induction more generalizing keys with
  | nil => exact h
  | cons key more ih => exact ih (nodup_addKey h key)

theorem mem_addKey {keys : List String} {key other : String} :
    other ∈ addKey keys key ↔ other ∈ keys ∨ other = key := by
  rw [addKey]
  split
  · next hk => exact ⟨.inl, fun h => h.elim id fun he => he ▸ hk⟩
  · simp

theorem mem_foldl_addKey {keys more : List String} {key : String} :
    key ∈ more.foldl addKey keys ↔ key ∈ keys ∨ key ∈ more := by
  induction more generalizing keys with
  | nil => simp
  | cons other more ih => rw [List.foldl_cons, ih, mem_addKey, or_assoc, List.mem_cons]

theorem nodup_keys_ofList (pairs : List (String × α)) : (ofList pairs).keys.Nodup := by
  rw [ofList, keys_insertAll]
  exact nodup_foldl_addKey (by simp [empty, keys]) _

theorem eraseDups_of_nodup {keys : List String} (h : keys.Nodup) : keys.eraseDups = keys := by
  induction keys with
  | nil => rfl
  | cons key more ih =>
    obtain ⟨hfresh, hmore⟩ := List.nodup_cons.mp h
    have hkept : more.filter (fun other => !other == key) = more := by
      refine List.filter_eq_self.mpr fun other hother => ?_
      have hne : other ≠ key := fun he => hfresh (he ▸ hother)
      simpa using hne
    rw [List.eraseDups_cons, hkept, ih hmore]

theorem foldl_addKey_eq {keys : List String} (h : keys.Nodup) (more : List String) :
    more.foldl addKey keys = (keys ++ more).eraseDups := by
  induction more generalizing keys with
  | nil => simp [eraseDups_of_nodup h]
  | cons key more ih =>
    rw [List.foldl_cons, ih (nodup_addKey h key), addKey]
    split
    · next hmem =>
      rw [List.eraseDups_append, List.eraseDups_append]
      simp [List.removeAll, hmem]
    · simp

theorem keys_ofList (pairs : List (String × α)) :
    (ofList pairs).keys = (pairs.map Prod.fst).eraseDups := by
  rw [ofList, keys_insertAll]
  exact foldl_addKey_eq List.nodup_nil _

theorem foldl_addKey_foldl (keys more others : List String) :
    (others.foldl addKey more).foldl addKey keys = others.foldl addKey (more.foldl addKey keys) := by
  induction others generalizing more with
  | nil => rfl
  | cons key others ih =>
    have hone : (addKey more key).foldl addKey keys = addKey (more.foldl addKey keys) key := by
      rw [addKey]
      split
      · next hmem => rw [addKey, if_pos (mem_foldl_addKey.mpr (.inr hmem))]
      · simp
    rw [List.foldl_cons, ih, hone, List.foldl_cons]

-- ---------------------------------------------------------------------------
-- Values
-- ---------------------------------------------------------------------------

/-- Under a key stands the last value inserted there, or else what stood there before. -/
theorem get?_insertAll (map : OrderedMap α) (pairs : List (String × α)) (key : String) :
    (map.insertAll pairs).get? key =
      ((pairs.reverse.find? (·.1 = key)).map Prod.snd).or (map.get? key) := by
  induction pairs generalizing map with
  | nil => rfl
  | cons pair more ih =>
    show ((map.insert pair.1 pair.2).insertAll more).get? key = _
    rw [ih, get?_insert, List.reverse_cons, List.find?_append]
    cases more.reverse.find? (·.1 = key) with
    | some found => rfl
    | none =>
      by_cases h : key = pair.1
      · simp [h]
      · simp [h, Ne.symm h]

theorem get?_ofList (pairs : List (String × α)) (key : String) :
    (ofList pairs).get? key = (pairs.reverse.find? (·.1 = key)).map Prod.snd := by
  rw [ofList, get?_insertAll]
  simp [empty, get?]

theorem get?_insertAll_of_mem {map : OrderedMap α} {pairs : List (String × α)}
    (h : ∀ first ∈ pairs, ∀ second ∈ pairs, first.1 = second.1 → first.2 = second.2)
    {pair : String × α} (hp : pair ∈ pairs) :
    (map.insertAll pairs).get? pair.1 = some pair.2 := by
  rw [get?_insertAll]
  cases hf : pairs.reverse.find? (·.1 = pair.1) with
  | none =>
    have hn := List.find?_eq_none.mp hf pair (List.mem_reverse.mpr hp)
    simp at hn
  | some found =>
    have hm : found ∈ pairs := List.mem_reverse.mp (List.mem_of_find?_eq_some hf)
    have hk : found.1 = pair.1 := by simpa using List.find?_some hf
    simp [h found hm pair hp hk]

theorem get?_cons (entry : String × α) (rest : List (String × α)) (key : String) :
    get? ⟨entry :: rest⟩ key = if entry.1 = key then some entry.2 else get? ⟨rest⟩ key := by
  by_cases h : entry.1 = key
  · simp [get?, h]
  · simp [get?, h]

theorem get?_eq_none_of_notMem {entries : List (String × α)} {key : String}
    (h : key ∉ entries.map Prod.fst) : get? ⟨entries⟩ key = none := by
  simp only [get?, Option.map_eq_none_iff, List.find?_eq_none]
  intro entry he
  have hne : entry.1 ≠ key := fun hk => h (hk ▸ List.mem_map_of_mem he)
  simpa using hne

theorem get?_of_mem {entries : List (String × α)} (hn : (entries.map Prod.fst).Nodup)
    {entry : String × α} (h : entry ∈ entries) : get? ⟨entries⟩ entry.1 = some entry.2 := by
  induction entries with
  | nil => cases h
  | cons first rest ih =>
    obtain ⟨hfresh, hn⟩ := List.nodup_cons.mp hn
    rw [get?_cons]
    rcases List.mem_cons.mp h with rfl | h
    · rw [if_pos rfl]
    · have hne : first.1 ≠ entry.1 := fun he => hfresh (he ▸ List.mem_map_of_mem h)
      rw [if_neg hne, ih hn h]

theorem mem_keys_iff {map : OrderedMap α} {key : String} :
    key ∈ map.keys ↔ ∃ value, map.get? key = some value := by
  constructor
  · intro h
    obtain ⟨entry, hentry, rfl⟩ := List.mem_map.mp h
    cases hfound : map.entries.find? (·.1 = entry.1) with
    | none => simpa using List.find?_eq_none.mp hfound entry hentry
    | some found => exact ⟨found.2, by rw [get?, hfound]; rfl⟩
  · rintro ⟨value, h⟩
    refine Decidable.byContradiction fun hk => ?_
    have hnone : map.get? key = none := get?_eq_none_of_notMem hk
    rw [hnone] at h
    cases h

theorem mem_entries_insert {map : OrderedMap α} {key : String} {value : α} {entry : String × α}
    (h : entry ∈ (map.insert key value).entries) : entry ∈ map.entries ∨ entry = (key, value) := by
  obtain ⟨entries⟩ := map
  simp only [insert] at h
  induction entries with
  | nil => exact .inr (List.mem_singleton.mp h)
  | cons first rest ih =>
    rw [insertEntry] at h
    split at h
    · rcases List.mem_cons.mp h with rfl | h
      · exact .inr rfl
      · exact .inl (List.mem_cons_of_mem _ h)
    · rcases List.mem_cons.mp h with rfl | h
      · exact .inl List.mem_cons_self
      · exact (ih h).imp_left (List.mem_cons_of_mem _)

theorem mem_entries_insertAll {map : OrderedMap α} {pairs : List (String × α)}
    {entry : String × α} (h : entry ∈ (map.insertAll pairs).entries) :
    entry ∈ map.entries ∨ entry ∈ pairs := by
  induction pairs generalizing map with
  | nil => exact .inl h
  | cons pair more ih =>
    have hmore : entry ∈ (map.insert pair.1 pair.2).entries ∨ entry ∈ more := ih h
    rcases hmore with h | h
    · rcases mem_entries_insert h with h | rfl
      · exact .inl h
      · exact .inr List.mem_cons_self
    · exact .inr (List.mem_cons_of_mem _ h)

/-- Keys in order and the values under them make up the whole map. -/
theorem ext_get? {first second : OrderedMap α} (hk : first.keys = second.keys)
    (hn : first.keys.Nodup) (hv : ∀ key, first.get? key = second.get? key) : first = second := by
  obtain ⟨entries⟩ := first
  obtain ⟨others⟩ := second
  simp only [keys] at hk hn
  induction entries generalizing others with
  | nil =>
    cases others with
    | nil => rfl
    | cons => simp at hk
  | cons entry rest ih =>
    cases others with
    | nil => simp at hk
    | cons other more =>
      simp only [List.map_cons, List.cons.injEq] at hk
      obtain ⟨hfirst, hrest⟩ := hk
      obtain ⟨hfresh, hn⟩ := List.nodup_cons.mp hn
      have hvalue : entry.2 = other.2 := by
        have h := hv entry.1
        rw [get?_cons, get?_cons, if_pos rfl, if_pos hfirst.symm] at h
        exact Option.some.inj h
      have htails : ∀ key, get? ⟨rest⟩ key = get? ⟨more⟩ key := by
        intro key
        by_cases he : entry.1 = key
        · -- the key of the first entry stands nowhere else
          subst he
          rw [get?_eq_none_of_notMem hfresh, get?_eq_none_of_notMem (hrest ▸ hfresh)]
        · have h := hv key
          rwa [get?_cons, get?_cons, if_neg he, if_neg (hfirst ▸ he)] at h
      have htail : rest = more := congrArg OrderedMap.entries (ih hn more hrest htails)
      rw [htail, Prod.ext hfirst hvalue]

-- ---------------------------------------------------------------------------
-- Updates
-- ---------------------------------------------------------------------------

theorem ofList_of_nodup {pairs : List (String × α)} (h : (pairs.map Prod.fst).Nodup) :
    ofList pairs = ⟨pairs⟩ := by
  refine ext_get? ?_ (nodup_keys_ofList pairs) fun key => ?_
  · rw [keys_ofList, eraseDups_of_nodup h]
    rfl
  · rw [get?_ofList]
    cases hfound : pairs.reverse.find? (·.1 = key) with
    | none =>
      refine (get?_eq_none_of_notMem fun hmem => ?_).symm
      obtain ⟨pair, hpair, rfl⟩ := List.mem_map.mp hmem
      simpa using List.find?_eq_none.mp hfound pair (List.mem_reverse.mpr hpair)
    | some pair =>
      have hpair : pair ∈ pairs := List.mem_reverse.mp (List.mem_of_find?_eq_some hfound)
      have hkey : pair.1 = key := by simpa using List.find?_some hfound
      rw [← hkey, get?_of_mem h hpair]
      rfl

theorem keys_update {first : OrderedMap α} (h : first.keys.Nodup) (second : OrderedMap α) :
    (first.update second).keys = (first.keys ++ second.keys).eraseDups := by
  rw [update, keys_insertAll, foldl_addKey_eq h]
  rfl

theorem get?_update {second : OrderedMap α} (h : second.keys.Nodup) (first : OrderedMap α)
    (key : String) :
    (first.update second).get? key = (second.get? key).or (first.get? key) := by
  rw [update, get?_insertAll, ← get?_ofList, ofList_of_nodup h]

theorem update_ofList {map : OrderedMap α} (h : map.keys.Nodup) (pairs : List (String × α)) :
    map.update (ofList pairs) = map.insertAll pairs := by
  refine ext_get? ?_ ?_ fun key => ?_
  · rw [update, keys_insertAll, keys_insertAll]
    show (ofList pairs).keys.foldl addKey map.keys = _
    rw [ofList, keys_insertAll]
    exact foldl_addKey_foldl map.keys [] (pairs.map Prod.fst)
  · rw [update, keys_insertAll]
    exact nodup_foldl_addKey h _
  · rw [get?_update (nodup_keys_ofList pairs), get?_ofList, get?_insertAll]

end SchemaGen.OrderedMap
