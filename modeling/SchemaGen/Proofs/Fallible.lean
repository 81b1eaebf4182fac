import Mathlib.Data.List.Forall2

/-!
# Sequences of steps that may fail

A step that may fail gives a value or a failure, and the first failure of a sequence is the failure
of the whole. `mapM_ok` and `forM_error` say when a sequence succeeds and when it fails; forgetting
the values (`Fallible.check`) turns nested sequences into one flat sequence.
-/

namespace SchemaGen.Fallible

variable {ε α β : Type}

theorem bind_eq_ok {step : Except ε α} {next : α → Except ε β} {result : β} :
    step >>= next = .ok result ↔ ∃ value, step = .ok value ∧ next value = .ok result := by
  cases step with
  | ok value => simp [bind, Except.bind]
  | error failure => simp [bind, Except.bind]

theorem bind_eq_error {step : Except ε α} {next : α → Except ε β} {failure : ε} :
    step >>= next = .error failure ↔
      step = .error failure ∨ ∃ value, step = .ok value ∧ next value = .error failure := by
  cases step with
  | ok value => simp [bind, Except.bind]
  | error other => simp [bind, Except.bind]

@[simp] theorem ok_bind (value : α) (next : α → Except ε β) :
    (Except.ok value : Except ε α) >>= next = next value := rfl

@[simp] theorem error_bind (failure : ε) (next : α → Except ε β) :
    (Except.error failure : Except ε α) >>= next = .error failure := rfl

@[simp] theorem pure_eq (value : α) : (pure value : Except ε α) = .ok value := rfl

theorem exists_ok {step : Except ε α} (h : step.toOption.isSome = true) :
    ∃ value, step = .ok value := by
  cases step with
  | ok value => exact ⟨value, rfl⟩
  | error failure => cases h

theorem exists_ok_of_any {step : Except ε α} {test : α → Bool}
    (h : step.toOption.any test = true) : ∃ value, step = .ok value ∧ test value = true := by
  cases step with
  | ok value => exact ⟨value, rfl, h⟩
  | error failure => cases h

theorem bind_congr_ok {step : Except ε α} {next other : α → Except ε β}
    (h : ∀ value, step = .ok value → next value = other value) :
    step >>= next = step >>= other := by
  cases step with
  | ok value => exact h value rfl
  | error failure => rfl

/-- A sequence of steps succeeds when each of them does, and gives their results in order. -/
theorem mapM_ok {step : α → Except ε β} {inputs : List α} {results : List β} :
    inputs.mapM step = .ok results ↔
      List.Forall₂ (fun input result => step input = .ok result) inputs results := by
  induction inputs generalizing results with
  | nil => cases results <;> simp
  | cons input more ih =>
    rw [List.mapM_cons]
    constructor
    · intro h
      obtain ⟨result, hr, h⟩ := bind_eq_ok.mp h
      obtain ⟨others, ho, h⟩ := bind_eq_ok.mp h
      cases h
      exact .cons hr (ih.mp ho)
    · intro h
      cases h with
      | cons hr ho => simp [hr, ih.mpr ho]

theorem exists_forall₂ {relation : α → β → Prop} {inputs : List α}
    (h : ∀ input ∈ inputs, ∃ result, relation input result) :
    ∃ results, List.Forall₂ relation inputs results := by
  induction inputs with
  | nil => exact ⟨[], .nil⟩
  | cons input more ih =>
    obtain ⟨result, hresult⟩ := h input (by simp)
    obtain ⟨results, hresults⟩ := ih fun other hother => h other (by simp [hother])
    exact ⟨result :: results, .cons hresult hresults⟩

theorem map_bind {γ : Type} (step : Except ε α) (next : α → Except ε β) (key : β → γ) :
    (step >>= next).map key = step >>= fun value => (next value).map key := by
  cases step with
  | ok value => rfl
  | error failure => rfl

/-- Steps that agree in part of their values may be followed by what looks at that part only. -/
theorem bind_congr_key {γ : Type} {first second : Except ε α} {key : α → γ}
    {next other : α → Except ε β} (h : first.map key = second.map key)
    (hnext : ∀ value result, key value = key result → next value = other result) :
    first >>= next = second >>= other := by
  cases first with
  | error failure =>
    cases second with
    | error failure' =>
      cases h
      rfl
    | ok result => cases h
  | ok value =>
    cases second with
    | error failure => cases h
    | ok result => exact hnext value result (Except.ok.inj h)

theorem mapM_map_congr {γ δ : Type} {step : α → Except ε β} {other : γ → Except ε β} {key : β → δ}
    {inputs : List α} {others : List γ}
    (h : List.Forall₂ (fun input second => (step input).map key = (other second).map key) inputs
      others) :
    (inputs.mapM step).map (List.map key) = (others.mapM other).map (List.map key) := by
  induction h with
  | nil => rfl
  | cons hfirst _ ih =>
    rw [List.mapM_cons, List.mapM_cons, map_bind, map_bind]
    refine bind_congr_key hfirst fun value result hkey => ?_
    rw [map_bind, map_bind]
    refine bind_congr_key ih fun values results hkeys => ?_
    simp [Except.map, hkey, hkeys]

theorem map_eq_map_of_forall₂ {γ : Type} {inputs : List α} {results : List β} {key : α → γ}
    {keyOf : β → γ}
    (h : List.Forall₂ (fun input result => keyOf result = key input) inputs results) :
    results.map keyOf = inputs.map key := by
  induction h with
  | nil => rfl
  | cons hkey _ ih => simp [hkey, ih]

theorem filterMap_eq_of_forall₂ {γ : Type} {inputs : List α} {results : List β}
    {part : α → Option γ} {partOf : β → Option γ}
    (h : List.Forall₂ (fun input result => partOf result = part input) inputs results) :
    results.filterMap partOf = inputs.filterMap part := by
  induction h with
  | nil => rfl
  | cons hpart _ ih => rw [List.filterMap_cons, List.filterMap_cons, hpart, ih]

/-- A sequence of steps on a state fails at the first step that does, in the state before it. -/
theorem foldlM_error {σ : Type} {step : σ → α → Except ε σ} {inputs : List α} {start : σ}
    {failure : ε} :
    inputs.foldlM step start = .error failure ↔
      ∃ before input after state, inputs = before ++ input :: after ∧
        before.foldlM step start = .ok state ∧ step state input = .error failure := by
  induction inputs generalizing start with
  | nil => simp
  | cons first more ih =>
    rw [List.foldlM_cons, bind_eq_error]
    constructor
    · rintro (h | ⟨next, hfirst, h⟩)
      · exact ⟨[], first, more, start, rfl, rfl, h⟩
      · obtain ⟨before, input, after, state, rfl, hbefore, hinput⟩ := ih.mp h
        refine ⟨first :: before, input, after, state, rfl, ?_, hinput⟩
        rw [List.foldlM_cons, hfirst]
        exact hbefore
    · rintro ⟨before, input, after, state, hsplit, hbefore, hinput⟩
      cases before with
      | nil =>
        cases hsplit
        cases hbefore
        exact .inl hinput
      | cons earlier before =>
        cases hsplit
        rw [List.foldlM_cons] at hbefore
        obtain ⟨next, hfirst, hbefore⟩ := bind_eq_ok.mp hbefore
        exact .inr ⟨next, hfirst, ih.mpr ⟨before, input, after, state, rfl, hbefore, hinput⟩⟩

-- ---------------------------------------------------------------------------
-- Agreement
-- ---------------------------------------------------------------------------

/-- Steps that give the same value when both succeed. -/
def Agree (first second : Except ε α) : Prop :=
  ∀ value other, first = .ok value → second = .ok other → value = other

theorem agree_of_eq {first second : Except ε α} (h : first = second) : Agree first second := by
  intro value other hvalue hother
  exact Except.ok.inj (hvalue.symm.trans (h.trans hother))

theorem Agree.bind {first second : Except ε α} {next other : α → Except ε β}
    (h : Agree first second) (hnext : ∀ value, Agree (next value) (other value)) :
    Agree (first >>= next) (second >>= other) := by
  intro result result' hresult hresult'
  obtain ⟨value, hvalue, hresult⟩ := bind_eq_ok.mp hresult
  obtain ⟨value', hvalue', hresult'⟩ := bind_eq_ok.mp hresult'
  cases h value value' hvalue hvalue'
  exact hnext value result result' hresult hresult'

theorem Agree.mapM {step other : α → Except ε β} (h : ∀ input, Agree (step input) (other input))
    (inputs : List α) : Agree (inputs.mapM step) (inputs.mapM other) := by
  induction inputs with
  | nil => exact agree_of_eq rfl
  | cons input more ih =>
    rw [List.mapM_cons, List.mapM_cons]
    exact (h input).bind fun result => ih.bind fun results => agree_of_eq rfl

-- ---------------------------------------------------------------------------
-- Forgetting the results
-- ---------------------------------------------------------------------------

/-- Whether a step succeeds, without its value. -/
def check (step : Except ε α) : Except ε Unit := step.map fun _ => ()

@[simp] theorem check_ok (value : α) : check (.ok value : Except ε α) = .ok () := rfl

@[simp] theorem check_error (failure : ε) : check (.error failure : Except ε α) = .error failure :=
  rfl

theorem check_eq_error {step : Except ε α} {failure : ε} :
    check step = .error failure ↔ step = .error failure := by
  cases step with
  | ok value => simp
  | error other => simp

theorem check_bind (step : Except ε α) (next : α → Except ε β) :
    check (step >>= next) = step >>= fun value => check (next value) := by
  cases step with
  | ok value => rfl
  | error failure => rfl

/-- Where what follows a step does not fail by its value, the value may be forgotten at once. -/
theorem check_bind_const {step : Except ε α} {next : α → Except ε β} {last : Except ε Unit}
    (h : ∀ value, check (next value) = last) :
    check (step >>= next) = check step >>= fun _ => last := by
  cases step with
  | ok value => exact h value
  | error failure => rfl

theorem check_bind_pure (step : Except ε α) (value : α → β) :
    check (step >>= fun result => pure (value result)) = check step := by
  cases step with
  | ok result => rfl
  | error failure => rfl

theorem check_mapM (step : α → Except ε β) (inputs : List α) :
    check (inputs.mapM step) = inputs.forM fun input => check (step input) := by
  induction inputs with
  | nil => rfl
  | cons input more ih =>
    rw [List.mapM_cons, check_bind]
    cases h : step input with
    | error failure => simp [h]
    | ok value =>
      rw [ok_bind, check_bind]
      simp only [List.forM_eq_forM, List.forM_cons, h, check_ok, ok_bind] at ih ⊢
      rw [← ih]
      cases more.mapM step <;> rfl

theorem forM_flatMap (parts : α → List β) (step : β → Except ε Unit) (inputs : List α) :
    (inputs.flatMap parts).forM step = inputs.forM fun input => (parts input).forM step := by
  induction inputs with
  | nil => rfl
  | cons input more ih =>
    simp only [List.forM_eq_forM, List.flatMap_cons, List.forM_append, List.forM_cons] at ih ⊢
    rw [ih]

theorem forM_error {step : α → Except ε Unit} {inputs : List α} {failure : ε} :
    inputs.forM step = .error failure ↔
      ∃ before input after, inputs = before ++ input :: after ∧
        (∀ earlier ∈ before, step earlier = .ok ()) ∧ step input = .error failure := by
  simp only [List.forM_eq_forM]
  induction inputs with
  | nil => simp
  | cons first more ih =>
    rw [List.forM_cons, bind_eq_error, ih]
    constructor
    · rintro (h | ⟨_, h, before, input, after, rfl, hb, hi⟩)
      · exact ⟨[], first, more, rfl, by simp, h⟩
      · refine ⟨first :: before, input, after, rfl, ?_, hi⟩
        simpa using ⟨h, hb⟩
    · rintro ⟨before, input, after, hsplit, hb, hi⟩
      cases before with
      | nil =>
        cases hsplit
        exact .inl hi
      | cons earlier before =>
        cases hsplit
        exact .inr ⟨(), hb _ (by simp), before, input, after, rfl,
          fun other ho => hb other (by simp [ho]), hi⟩

end SchemaGen.Fallible
