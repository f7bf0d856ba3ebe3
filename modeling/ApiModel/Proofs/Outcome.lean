import ApiModel.Outcome

/-!
# Passes and their outcomes

What the steps of a pass do to a model, the whole pass does: steps that keep something keep it in
the end, also where a step fails, and steps that change nothing change nothing together.
-/

namespace ApiModel

variable {α : Type} {m : Model}

/-! ## Passes that cannot fail -/

/-- A pass relates its model to its result if its steps do. -/
theorem foldl_relates {R : Model → Model → Prop} (hrefl : ∀ m, R m m)
    (htrans : ∀ {a b c}, R a b → R b c → R a c) {step : Model → α → Model}
    (hstep : ∀ m x, R m (step m x)) (items : List α) (m : Model) : R m (items.foldl step m) := by
  induction items generalizing m with
  | nil => exact hrefl m
  | cons x rest ih => exact htrans (hstep m x) (ih (step m x))

/-- A pass keeps what its steps keep. -/
theorem foldl_keeps {P : Model → Prop} {step : Model → α → Model}
    (hstep : ∀ m x, P m → P (step m x)) (items : List α) (h : P m) :
    P (items.foldl step m) := by
  have hpass := foldl_relates (R := fun a b => P a → P b) (fun _ h => h)
    (fun hab hbc h => hbc (hab h)) hstep items m
  exact hpass h

/-- A pass whose steps change nothing changes nothing. -/
theorem foldl_eq_self {step : Model → α → Model} {items : List α}
    (h : ∀ x ∈ items, step m x = m) : items.foldl step m = m := by
  induction items with
  | nil => rfl
  | cons x rest ih =>
    rw [List.foldl_cons, h x List.mem_cons_self]
    exact ih fun y hy => h y (List.mem_cons_of_mem x hy)

/-! ## Passes that may fail -/

namespace Outcome

variable {step : Model → α → Except Error Model} {items : List α}

/-- A pass that may fail relates its model to its result if its successful steps do. -/
theorem forEach_relates {R : Model → Model → Prop} (hrefl : ∀ m, R m m)
    (htrans : ∀ {a b c}, R a b → R b c → R a c)
    (hstep : ∀ m x y, step m x = .ok y → R m y) (items : List α) (m : Model) :
    R m (forEach step items m).model := by
  induction items generalizing m with
  | nil => exact hrefl m
  | cons x rest ih =>
    rw [forEach]
    cases hx : step m x with
    | error e => exact hrefl m
    | ok y => exact htrans (hstep m x y hx) (ih y)

/-- A pass that may fail keeps what its successful steps keep. -/
theorem forEach_keeps {P : Model → Prop} (hstep : ∀ m x y, step m x = .ok y → P m → P y)
    (items : List α) (h : P m) : P (forEach step items m).model := by
  have hpass := forEach_relates (R := fun a b => P a → P b) (fun _ h => h)
    (fun hab hbc h => hbc (hab h)) hstep items m
  exact hpass h

/-- A pass that may fail changes nothing if its successful steps change nothing. -/
theorem forEach_model_eq_self (h : ∀ x ∈ items, ∀ y, step m x = .ok y → y = m) :
    (forEach step items m).model = m := by
  induction items with
  | nil => rfl
  | cons x rest ih =>
    rw [forEach]
    cases hx : step m x with
    | error e => rfl
    | ok y =>
      obtain rfl := h x List.mem_cons_self y hx
      exact ih fun z hz => h z (List.mem_cons_of_mem x hz)

/-- Two passes in a row relate a model to their result if each does. -/
theorem andThen_relates {R : Model → Model → Prop}
    (htrans : ∀ {a b c}, R a b → R b c → R a c) {outcome : Outcome} {pass : Model → Outcome}
    (h : R m outcome.model) (hpass : ∀ k, R k (pass k).model) :
    R m (outcome.andThen pass).model := by
  unfold andThen
  split
  · exact htrans h (hpass outcome.model)
  · exact h

/-- Two passes in a row keep what the second keeps of the result of the first. -/
theorem andThen_keeps {P : Model → Prop} {outcome : Outcome} {pass : Model → Outcome}
    (h : P outcome.model) (hpass : ∀ k, P k → P (pass k).model) :
    P (outcome.andThen pass).model := by
  have hboth := andThen_relates (m := outcome.model) (R := fun a b => P a → P b)
    (fun hab hbc h => hbc (hab h)) (fun h => h) hpass
  exact hboth h

/-- Two passes in a row change nothing if neither does. -/
theorem andThen_model_eq_self {outcome : Outcome} {pass : Model → Outcome}
    (h : outcome.model = m) (hpass : (pass m).model = m) : (outcome.andThen pass).model = m := by
  unfold andThen
  split
  · rw [h, hpass]
  · exact h

/-- A pass behind one that came to its end starts from the model of that one. -/
theorem andThen_of_end (m : Model) (pass : Model → Outcome) :
    andThen ⟨m, none⟩ pass = pass m := rfl

/-- A pass that fails makes a row of passes fail with its error. -/
theorem andThen_error {outcome : Outcome} {pass : Model → Outcome} {e : Error}
    (h : outcome.error? = some e) : (outcome.andThen pass).error? = some e := by
  unfold andThen
  rw [h]
  exact h

/-- The error of a pass is that of one of its steps. -/
theorem of_forEach_error {e : Error} (h : (forEach step items m).error? = some e) :
    ∃ k, ∃ x ∈ items, step k x = .error e := by
  induction items generalizing m with
  | nil => cases h
  | cons x rest ih =>
    rw [forEach] at h
    cases hx : step m x with
    | error fault =>
      rw [hx] at h
      obtain rfl := Option.some.inj h
      exact ⟨m, x, List.mem_cons_self, hx⟩
    | ok y =>
      rw [hx] at h
      obtain ⟨k, z, hz, hfail⟩ := ih (m := y) h
      exact ⟨k, z, List.mem_cons_of_mem x hz, hfail⟩

/-- A result is the model of a pass without an error. -/
theorem result_eq_ok {outcome : Outcome} :
    outcome.result = .ok m ↔ outcome.error? = none ∧ outcome.model = m := by
  unfold result
  cases outcome.error? with
  | none => simp
  | some e => simp

/-- A failure is the error of a pass. -/
theorem result_eq_error {outcome : Outcome} {e : Error} :
    outcome.result = .error e ↔ outcome.error? = some e := by
  unfold result
  cases outcome.error? with
  | none => simp
  | some fault => simp

end Outcome

end ApiModel
