import SchemaGen.Proofs.Wire.RoundTrip

/-!
# Records that can be written again

What has been read can be written and read once more: numbers that came from tags fit into tags, and
groups nest no deeper than they were allowed to (`Record.tidy_of_readAll`). Lengths take no part in
this; a bound on the whole bounds them all.
-/

namespace SchemaGen.Wire

namespace Record

def IsNumber (number : Nat) : Prop := 0 < number ∧ number ≤ Token.maxNumber

/-- A record whose numbers fit into tags and in which groups nest at most `depth` deep. -/
structure Tidy (depth : Nat) (record : Record) : Prop where
  numbers : ∀ token ∈ record.tokens, IsNumber token.number
  height : record.height ≤ depth

theorem tidy_of_shape {depth : Nat} {record : Record} (hshape : record.shape ≠ .group)
    (hnumber : IsNumber record.number) : record.Tidy depth := by
  cases record with
  | group number members => exact absurd rfl hshape
  | _ =>
    refine ⟨fun token htoken => ?_, by simp [height]⟩
    simp only [tokens, List.mem_singleton] at htoken
    subst htoken
    exact hnumber

theorem Tidy.number {depth : Nat} {record : Record} (h : record.Tidy depth) :
    IsNumber record.number := by
  cases record with
  | group number members => exact h.numbers (.opening number) (by simp [tokens])
  | varint number value => exact h.numbers (.varint number value) (by simp [tokens])
  | fixed64 number bits => exact h.numbers (.fixed64 number bits) (by simp [tokens])
  | bytes number content => exact h.numbers (.bytes number content) (by simp [tokens])
  | fixed32 number bits => exact h.numbers (.fixed32 number bits) (by simp [tokens])

theorem Tidy.mono {depth more : Nat} {record : Record} (h : record.Tidy depth)
    (hle : depth ≤ more) : record.Tidy more :=
  ⟨h.numbers, Nat.le_trans h.height hle⟩

theorem tidy_group {depth number : Nat} {members : List Record} (hnumber : IsNumber number)
    (hmembers : ∀ member ∈ members, member.Tidy depth) :
    (group number members).Tidy (depth + 1) := by
  constructor
  · intro token htoken
    simp only [tokens, List.mem_cons, List.mem_append, List.not_mem_nil, or_false] at htoken
    rcases htoken with rfl | htoken | rfl
    · exact hnumber
    · obtain ⟨member, hmember, htoken⟩ := mem_tokensAll.mp htoken
      exact (hmembers member hmember).numbers token htoken
    · exact hnumber
  · rw [height]
    exact Nat.succ_le_succ (heightAll_le.mpr fun member hmember => (hmembers member hmember).height)

-- ---------------------------------------------------------------------------
-- Reading
-- ---------------------------------------------------------------------------

theorem isNumber_of_read {limit : Nat} {input rest : Bytes} {token : Token}
    (h : Token.read limit input = some (token, rest)) : IsNumber token.number := by
  rw [Token.read] at h
  obtain ⟨⟨tag, after⟩, -, h⟩ := Option.bind_eq_some_iff.mp h
  dsimp only at h
  split at h
  · cases h
  · next hbounds =>
    simp only [Bool.or_eq_true, decide_eq_true_eq, beq_iff_eq, not_or, Nat.not_le, ge_iff_le]
      at hbounds
    have hnumber : IsNumber (tag / 8) := by
      have htag : tag < 4294967296 := hbounds.1
      refine ⟨by omega, ?_⟩
      rw [Token.maxNumber]
      omega
    -- every token takes its number from the tag
    split at h
    · obtain ⟨_, -, hpair⟩ := Option.map_eq_some_iff.mp h
      cases hpair
      exact hnumber
    · obtain ⟨_, -, hpair⟩ := Option.map_eq_some_iff.mp h
      cases hpair
      exact hnumber
    · obtain ⟨_, -, hpair⟩ := Option.map_eq_some_iff.mp h
      cases hpair
      exact hnumber
    · cases h
      exact hnumber
    · cases h
      exact hnumber
    · obtain ⟨_, -, hpair⟩ := Option.map_eq_some_iff.mp h
      cases hpair
      exact hnumber
    · cases h

theorem isNumber_of_readUpTo {limit count : Nat} {input : Bytes} {tokens : List Token}
    (h : Token.readUpTo limit count input = some tokens) :
    ∀ token ∈ tokens, IsNumber token.number := by
  induction count generalizing input tokens with
  | zero =>
    cases input with
    | nil => cases h; simp
    | cons b input => cases h
  | succ count ih =>
    cases input with
    | nil => cases h; simp
    | cons b input =>
      rw [Token.readUpTo] at h
      obtain ⟨⟨token, rest⟩, htoken, h⟩ := Option.bind_eq_some_iff.mp h
      obtain ⟨more, hmore, h⟩ := Option.bind_eq_some_iff.mp h
      cases h
      exact List.forall_mem_cons.mpr ⟨isNumber_of_read htoken, ih hmore⟩

/-- What is known of the open groups while tokens are nested: each has a number, and the records
before it leave room for the groups around them. -/
def TidyOuter (depth : Nat) : List Opened → Prop
  | [] => True
  | (number, before) :: outer =>
    IsNumber number ∧ (∀ record ∈ before, record.Tidy (depth - outer.length)) ∧
      outer.length < depth ∧ TidyOuter depth outer

theorem tidy_of_nest {depth : Nat} {outer : List Opened} {level : List Record}
    {tokens : List Token} {records : List Record}
    (h : nest depth outer level tokens = some records)
    (htokens : ∀ token ∈ tokens, IsNumber token.number) (houter : TidyOuter depth outer)
    (hlevel : ∀ record ∈ level, record.Tidy (depth - outer.length)) :
    ∀ record ∈ records, record.Tidy depth := by
  -- one record more on the innermost level, not a group
  have hplain : ∀ {outer : List Opened} {level : List Record} (record : Record),
      record.shape ≠ .group → IsNumber record.number →
      (∀ other ∈ level, other.Tidy (depth - outer.length)) →
      ∀ other ∈ record :: level, other.Tidy (depth - outer.length) :=
    fun record hshape hnumber hlevel =>
      List.forall_mem_cons.mpr ⟨tidy_of_shape hshape hnumber, hlevel⟩
  fun_induction nest depth outer level tokens with
  | case1 level =>
    cases h
    simpa using hlevel
  | case2 => cases h
  | case3 outer level number value tokens ih =>
    obtain ⟨hnumber, htokens⟩ := List.forall_mem_cons.mp htokens
    exact ih h htokens houter (hplain _ (by simp [shape]) hnumber hlevel)
  | case4 outer level number bits tokens ih =>
    obtain ⟨hnumber, htokens⟩ := List.forall_mem_cons.mp htokens
    exact ih h htokens houter (hplain _ (by simp [shape]) hnumber hlevel)
  | case5 outer level number content tokens ih =>
    obtain ⟨hnumber, htokens⟩ := List.forall_mem_cons.mp htokens
    exact ih h htokens houter (hplain _ (by simp [shape]) hnumber hlevel)
  | case6 outer level number bits tokens ih =>
    obtain ⟨hnumber, htokens⟩ := List.forall_mem_cons.mp htokens
    exact ih h htokens houter (hplain _ (by simp [shape]) hnumber hlevel)
  | case7 outer level number tokens hroom ih =>
    obtain ⟨hnumber, htokens⟩ := List.forall_mem_cons.mp htokens
    exact ih h htokens ⟨hnumber, hlevel, hroom, houter⟩ (by simp)
  | case8 => cases h
  | case9 before outer level number tokens ih =>
    obtain ⟨-, htokens⟩ := List.forall_mem_cons.mp htokens
    obtain ⟨hnumber, hbefore, hroom, houter⟩ := houter
    have hgroup : (group number level.reverse).Tidy (depth - outer.length) := by
      have hmembers : ∀ member ∈ level.reverse, member.Tidy (depth - (outer.length + 1)) := by
        simpa using hlevel
      have hdepth : depth - outer.length = depth - (outer.length + 1) + 1 := by omega
      rw [hdepth]
      exact tidy_group hnumber hmembers
    exact ih h htokens houter (List.forall_mem_cons.mpr ⟨hgroup, hbefore⟩)
  | case10 => cases h
  | case11 => cases h

theorem tidy_of_readAll {depth : Nat} {content : Bytes} {records : List Record}
    (h : readAll depth content = some records) : ∀ record ∈ records, record.Tidy depth := by
  rw [readAll, readWithin] at h
  obtain ⟨tokens, htokens, hnest⟩ := Option.bind_eq_some_iff.mp h
  exact tidy_of_nest hnest (isNumber_of_readUpTo htokens) trivial (by simp)

theorem nest_mono {depth more : Nat} (hle : depth ≤ more) {outer : List Opened}
    {level : List Record} {tokens : List Token} {records : List Record}
    (h : nest depth outer level tokens = some records) :
    nest more outer level tokens = some records := by
  fun_induction nest depth outer level tokens with
  | case1 level => exact h
  | case2 => cases h
  | case3 outer level number value tokens ih => exact (nest.eq_3 ..).trans (ih h)
  | case4 outer level number bits tokens ih => exact (nest.eq_4 ..).trans (ih h)
  | case5 outer level number content tokens ih => exact (nest.eq_5 ..).trans (ih h)
  | case6 outer level number bits tokens ih => exact (nest.eq_6 ..).trans (ih h)
  | case7 outer level number tokens hroom ih =>
    rw [nest, if_pos (Nat.lt_of_lt_of_le hroom hle)]
    exact ih h
  | case8 => cases h
  | case9 before outer level number tokens ih =>
    rw [nest, if_pos rfl]
    exact ih h
  | case10 => cases h
  | case11 => cases h

theorem readAll_mono {depth more : Nat} (hle : depth ≤ more) {content : Bytes}
    {records : List Record} (h : readAll depth content = some records) :
    readAll more content = some records := by
  rw [readAll, readWithin] at h ⊢
  obtain ⟨tokens, htokens, hnest⟩ := Option.bind_eq_some_iff.mp h
  rw [htokens]
  exact nest_mono hle hnest

-- ---------------------------------------------------------------------------
-- Writing and reading
-- ---------------------------------------------------------------------------

theorem isNumber_of_mem_tokensAll {depth : Nat} {records : List Record}
    (h : ∀ record ∈ records, record.Tidy depth) :
    ∀ token ∈ tokensAll records, IsNumber token.number := by
  intro token htoken
  obtain ⟨record, hrecord, htoken⟩ := mem_tokensAll.mp htoken
  exact (h record hrecord).numbers token htoken

/-- Whether a length can be written in what the generator reads. -/
def IsShort (content : Bytes) : Prop := Varint.width content.length ≤ maxTagBytes

instance (content : Bytes) : Decidable (IsShort content) := inferInstanceAs (Decidable (_ ≤ _))

theorem width_mono {n m : Nat} (h : n ≤ m) : Varint.width n ≤ Varint.width m := by
  have hlog : n.log2 ≤ m.log2 := by
    by_cases hzero : n = 0
    · simp [hzero]
    · exact (Nat.le_log2 (by omega)).mpr (Nat.le_trans (Nat.log2_self_le hzero) h)
  exact Nat.succ_le_succ (Nat.div_le_div_right hlog)

theorem readAll_encodeAll {depth : Nat} {records : List Record}
    (htidy : ∀ record ∈ records, record.Tidy depth) (hshort : IsShort (encodeAll records)) :
    readAll depth (encodeAll records) = some records := by
  refine readWithin_encodeAll (fun token htoken => ?_) ?_
  · have hlength := Token.announced_lt_length htoken
    rw [← encodeAll_eq] at hlength
    obtain ⟨hpositive, hsmall⟩ := isNumber_of_mem_tokensAll htidy token htoken
    exact ⟨hpositive, hsmall, Nat.le_trans (width_mono (Nat.le_of_lt hlength)) hshort⟩
  · exact heightAll_le.mpr fun record hrecord => (htidy record hrecord).height

theorem encodeAll_append (records others : List Record) :
    encodeAll (records ++ others) = encodeAll records ++ encodeAll others := by
  induction records with
  | nil => rfl
  | cons record more ih => rw [List.cons_append, encodeAll, encodeAll, ih, List.append_assoc]

theorem length_encodeAll_le {records others : List Record} (h : records.Sublist others) :
    (encodeAll records).length ≤ (encodeAll others).length := by
  induction h with
  | slnil => exact Nat.le_refl _
  | cons record _ ih => rw [encodeAll, List.length_append]; omega
  | cons_cons record _ ih =>
    rw [encodeAll, encodeAll, List.length_append, List.length_append]
    omega

theorem encodeAll_inj {depth : Nat} {records others : List Record}
    (hrecords : ∀ record ∈ records, record.Tidy depth)
    (hothers : ∀ record ∈ others, record.Tidy depth)
    (h : encodeAll records = encodeAll others) : records = others := by
  have hread : ∀ {records : List Record}, (∀ record ∈ records, record.Tidy depth) →
      readWithin (encodeAll records).length depth (encodeAll records) = some records :=
    fun htidy => readWithin_length_encodeAll (isNumber_of_mem_tokensAll htidy)
      (heightAll_le.mpr fun record hrecord => (htidy record hrecord).height)
  have hboth := hread hrecords
  rw [h, hread hothers] at hboth
  exact (Option.some.inj hboth).symm

theorem length_le_of_bytes_mem {number : Nat} {content : Bytes} {records : List Record}
    (h : bytes number content ∈ records) : content.length ≤ (encodeAll records).length := by
  have htoken : Token.bytes number content ∈ tokensAll records :=
    mem_tokensAll.mpr ⟨_, h, by simp [tokens]⟩
  rw [encodeAll_eq]
  exact Nat.le_of_lt (Token.announced_lt_length htoken)

theorem IsShort.of_length_le {content other : Bytes} (hshort : IsShort content)
    (h : other.length ≤ content.length) : IsShort other := Nat.le_trans (width_mono h) hshort

theorem IsShort.of_bytes_mem {number : Nat} {content : Bytes} {records : List Record}
    (hshort : IsShort (encodeAll records)) (h : bytes number content ∈ records) :
    IsShort content := hshort.of_length_le (length_le_of_bytes_mem h)

end Record

end SchemaGen.Wire
