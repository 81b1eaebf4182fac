import SchemaGen.Proofs.Descriptor.PoolOrder

/-!
# Names of the standard descriptors

No two things in the standard descriptors have the same full name (`nodup_symbols`), and the two
option messages stand inside no other message (`mem_outermost`). Names are looked at as bytes here:
that of a type ends with a small letter and that of a value does not, which keeps the two apart
without a comparison of each with each.
-/

namespace SchemaGen.Descriptor

-- ---------------------------------------------------------------------------
-- Names as bytes
-- ---------------------------------------------------------------------------

def nameBytes (name : String) : List UInt8 := name.toByteArray.data.toList

theorem nameBytes_append (name other : String) :
    nameBytes (name ++ other) = nameBytes name ++ nameBytes other := by
  simp [nameBytes]

theorem nameBytes_inj {name other : String} : nameBytes name = nameBytes other ↔ name = other := by
  rw [nameBytes, nameBytes, Array.toList_inj, ← ByteArray.ext_iff, String.toByteArray_inj]

theorem nameBytes_dot : nameBytes "." = [46] := by decide +kernel

theorem nameBytes_qualify {scope : String} (name : String) (h : scope ≠ "") :
    nameBytes (qualify scope name) = nameBytes scope ++ 46 :: nameBytes name := by
  rw [qualify, if_neg h, nameBytes_append, nameBytes_append, nameBytes_dot, List.append_assoc,
    List.singleton_append]

theorem eq_of_append_cons_eq {α : Type} {before other after rest : List α} {dot : α}
    (hafter : dot ∉ after) (hrest : dot ∉ rest)
    (h : before ++ dot :: after = other ++ dot :: rest) : before = other ∧ after = rest := by
  rcases List.append_eq_append_iff.mp h with ⟨between, rfl, hbetween⟩ | ⟨between, rfl, hbetween⟩
  · cases between <;> simp_all
  · cases between <;> simp_all

/-- A last name without a dot can be told from the scope before it. -/
theorem qualify_inj {scope other name next : String} (hname : 46 ∉ nameBytes name)
    (hnext : 46 ∉ nameBytes next) (h : qualify scope name = qualify other next) :
    scope = other ∧ name = next := by
  by_cases hscope : scope = ""
  · by_cases hother : other = ""
    · subst hscope hother
      exact ⟨rfl, by simpa [qualify] using h⟩
    · have hbytes := nameBytes_qualify next hother
      rw [← h, hscope, qualify, if_pos rfl] at hbytes
      simp [hbytes] at hname
  · by_cases hother : other = ""
    · have hbytes := nameBytes_qualify name hscope
      rw [h, hother, qualify, if_pos rfl] at hbytes
      simp [hbytes] at hnext
    · have hbytes := congrArg nameBytes h
      rw [nameBytes_qualify name hscope, nameBytes_qualify next hother] at hbytes
      obtain ⟨hbefore, hafter⟩ := eq_of_append_cons_eq hname hnext hbytes
      exact ⟨nameBytes_inj.mp hbefore, nameBytes_inj.mp hafter⟩

def endsSmall (name : String) : Bool := (nameBytes name).getLast?.any (97 ≤ ·)

theorem endsSmall_qualify {scope name : String} (h : name ≠ "") :
    endsSmall (qualify scope name) = endsSmall name := by
  by_cases hscope : scope = ""
  · rw [hscope, qualify, if_pos rfl]
  · have hbytes : nameBytes name ≠ [] := fun hnil => h (nameBytes_inj.mp hnil)
    have hlast := List.getLast?_eq_some_getLast hbytes
    simp [endsSmall, nameBytes_qualify name hscope, List.getLast?_append, List.getLast?_cons, hlast]

namespace Standard

def namedValues : List (String × String) :=
  enums.flatMap fun enum => enum.values.map fun value => (enum.name, value.1)

theorem valueNames_eq : enums.flatMap valueNames =
    namedValues.map fun entry => qualify (scopeAround entry.1) entry.2 := by
  simp only [namedValues, List.map_flatMap, List.map_map]
  rfl

theorem names_apart :
    (∀ name ∈ pool.tableNames, endsSmall name = true ∧ (nameBytes name).head? = some 103) ∧
      (∀ entry ∈ namedValues,
        entry.2 ≠ "" ∧ endsSmall entry.2 = false ∧ 46 ∉ nameBytes entry.2) ∧
      (namedValues.Pairwise fun entry other =>
        entry.2 ≠ other.2 ∨ scopeAround entry.1 ≠ scopeAround other.1) ∧
      ∀ type ∈ messages, type.name = fieldOptions ∨ type.name = messageOptions →
        ∀ outer ∈ messages, (nameBytes type.name)[(nameBytes outer.name).length]? ≠ some 46 := by
  decide +kernel

theorem endsSmall_of_mem_valueNames {name : String} (h : name ∈ enums.flatMap valueNames) :
    endsSmall name = false := by
  rw [valueNames_eq] at h
  obtain ⟨entry, hentry, rfl⟩ := List.mem_map.mp h
  obtain ⟨hname, hsmall, -⟩ := names_apart.2.1 entry hentry
  rw [endsSmall_qualify hname, hsmall]

theorem nodup_symbols : pool.symbols.Nodup := by
  obtain ⟨htable, hvalues, hapart, -⟩ := names_apart
  rw [Pool.symbols_standard]
  -- values differ in their names or scopes, and no value is named like a type
  refine List.Nodup.append Pool.unambiguous_standard.names ?_ ?_
  · rw [valueNames_eq, List.Nodup, List.pairwise_map]
    apply hapart.imp_of_mem
    intro entry other hentry hother hdiffer hsame
    obtain ⟨hscope, hname⟩ := qualify_inj (hvalues entry hentry).2.2 (hvalues other hother).2.2 hsame
    rcases hdiffer with hdiffer | hdiffer
    · exact hdiffer hname
    · exact hdiffer hscope
  · intro name hname hother
    have hsmall := endsSmall_of_mem_valueNames hother
    rw [(htable name hname).1] at hsmall
    cases hsmall

/-- A name that ends with a small letter and does not begin like the standard package is new. -/
theorem notMem_symbols {name : String} (hsmall : endsSmall name = true)
    (hfirst : (nameBytes name).head? ≠ some 103) : name ∉ pool.symbols := by
  rw [Pool.symbols_standard, List.mem_append]
  rintro (htable | hvalue)
  · exact hfirst (names_apart.1 name htable).2
  · rw [endsSmall_of_mem_valueNames hvalue] at hsmall
    cases hsmall

theorem nameRefusal?_enter {file : File} (dialect : Dialect)
    (hfile : file.nameText.toList.contains '\x00' = false)
    (hpackage : isPackageName file.packageText = true)
    (hplain : file.plainNames.all isIdentifier = true) (hnodup : file.declaredNames.Nodup)
    (hnew : ∀ name ∈ file.declaredNames,
      endsSmall name = true ∧ (nameBytes name).head? ≠ some 103) :
    (pool.enter dialect file).nameRefusal? file = none := by
  have hsymbols : (pool.enter dialect file).symbols.Nodup := by
    refine List.Nodup.append nodup_symbols hnodup ?_
    intro name hmem hdeclared
    obtain ⟨hsmall, hfirst⟩ := hnew name hdeclared
    exact notMem_symbols hsmall hfirst hmem
  have hidentifiers : file.plainNames.find? (!isIdentifier ·) = none := by simpa using hplain
  rw [Pool.nameRefusal?, hfile, hidentifiers, firstRepeated?_eq_none.mpr hsymbols]
  simp [hpackage]

-- ---------------------------------------------------------------------------
-- Messages inside others
-- ---------------------------------------------------------------------------

theorem isInner_eq_false {type : MessageType} (h : ∀ outer ∈ messages,
    (nameBytes type.name)[(nameBytes outer.name).length]? ≠ some 46) : isInner type = false := by
  rw [isInner, List.any_eq_false]
  intro outer houter hprefix
  obtain ⟨rest, hrest⟩ := List.isPrefixOf_iff_prefix.mp hprefix
  have hname : type.name = outer.name ++ "." ++ String.ofList rest := by
    rw [← String.toList_inj, String.toList_append, String.toList_ofList, hrest]
  apply h outer houter
  simp [hname, nameBytes_append, nameBytes_dot]

theorem mem_outermost : fieldOptions ∈ pool.outermost ∧ messageOptions ∈ pool.outermost := by
  have hmem : ∀ name, name = fieldOptions ∨ name = messageOptions → name ∈ messages.map (·.name) →
      name ∈ pool.outermost := by
    intro name hname hmem
    obtain ⟨type, htype, rfl⟩ := List.mem_map.mp hmem
    have hkept : (!isInner type) = true := by
      rw [isInner_eq_false (names_apart.2.2.2 type htype hname), Bool.not_false]
    simp only [pool]
    exact List.mem_map_of_mem (List.mem_filter.mpr ⟨htype, hkept⟩)
  exact ⟨hmem _ (.inl rfl) (by decide +kernel), hmem _ (.inr rfl) (by decide +kernel)⟩

end Standard

end SchemaGen.Descriptor
