import StyledTemplate.Error

/-!
# Outcomes of computations that can fail

How a computation that succeeds was put together: the steps of it that succeeded before. With these
lemmas a computation is taken apart without unfolding what runs it.
-/

namespace StyledTemplate

variable {ε ε' α β σ : Type}

theorem exists_of_map_eq_ok {f : α → β} {x : Except ε α} {b : β} (h : x.map f = .ok b) :
    ∃ a, x = .ok a ∧ f a = b := by
  cases x with
  | error e => simp [Except.map] at h
  | ok a => exact ⟨a, rfl, Except.ok.inj h⟩

theorem exists_of_bind_eq_ok {x : Except ε α} {f : α → Except ε β} {b : β}
    (h : (x >>= f) = .ok b) : ∃ a, x = .ok a ∧ f a = .ok b := by
  cases x with
  | error e => simp [bind, Except.bind] at h
  | ok a => exact ⟨a, rfl, h⟩

theorem toOption_map (f : α → β) (x : Except ε α) : (x.map f).toOption = x.toOption.map f := by
  cases x <;> rfl

theorem exists_of_isSome_toOption {x : Except ε α} (h : x.toOption.isSome) : ∃ a, x = .ok a := by
  cases x with
  | error e => simp [Except.toOption] at h
  | ok a => exact ⟨a, rfl⟩

theorem toOption_eq_some_iff {x : Except ε α} {a : α} : x.toOption = some a ↔ x = .ok a := by
  cases x <;> simp [Except.toOption]

theorem map_eq_error_iff {f : α → β} {x : Except ε α} {e : ε} :
    x.map f = .error e ↔ x = .error e := by
  cases x <;> simp [Except.map]

theorem exists_of_mapError_eq_error {f : ε → ε'} {x : Except ε α} {e : ε'}
    (h : x.mapError f = .error e) : ∃ e₀, x = .error e₀ ∧ f e₀ = e := by
  cases x with
  | error e₀ => exact ⟨e₀, rfl, Except.error.inj h⟩
  | ok a => cases h

theorem mapError_eq_ok_iff {f : ε → ε'} {x : Except ε α} {a : α} :
    x.mapError f = .ok a ↔ x = .ok a := by
  constructor
  · intro h
    cases x with
    | error e => cases h
    | ok b => exact congrArg Except.ok (Except.ok.inj h)
  · rintro rfl
    rfl

/-! ## Successes -/

theorem isOk_iff {x : Except ε α} : x.isOk = true ↔ ∃ a, x = .ok a := by
  cases x with
  | error e => simp [Except.isOk, Except.toBool]
  | ok a => simp [Except.isOk, Except.toBool]

theorem isOk_bind_pure (x : Except ε α) (f : α → β) :
    (do
      let a ← x
      return f a : Except ε β).isOk = x.isOk := by
  cases x <;> rfl

/-- Two steps that do not depend on each other succeed if both do. -/
theorem isOk_bind_bind {γ : Type} (x : Except ε α) (y : Except ε β) (f : α → β → γ) :
    (do
      let a ← x
      let b ← y
      return f a b : Except ε γ).isOk = (x.isOk && y.isOk) := by
  cases x with
  | error e => rfl
  | ok a => cases y <;> rfl

/-! ## Failures -/

/-- The error that the computation fails with, if it does. -/
def failure? : Except ε α → Option ε
  | .error e => some e
  | .ok _ => none

theorem failure?_eq_some_iff {x : Except ε α} {e : ε} : failure? x = some e ↔ x = .error e := by
  cases x <;> simp [failure?]

/-- Whatever error the computation fails with has the property. -/
def OnlyFails (P : ε → Prop) (x : Except ε α) : Prop := ∀ e, x = .error e → P e

theorem OnlyFails.ok (P : ε → Prop) (a : α) : OnlyFails P (.ok a) := by
  intro e h
  cases h

theorem OnlyFails.error {P : ε → Prop} {e : ε} (h : P e) :
    OnlyFails P (.error e : Except ε α) := by
  intro e' he
  obtain rfl := Except.error.inj he
  exact h

theorem OnlyFails.bind {P : ε → Prop} {x : Except ε α} {f : α → Except ε β} (hx : OnlyFails P x)
    (hf : ∀ a, OnlyFails P (f a)) : OnlyFails P (x >>= f) := by
  intro e h
  cases x with
  | error e' =>
    have heq : e' = e := Except.error.inj h
    exact hx e (congrArg Except.error heq)
  | ok a => exact hf a e h

theorem OnlyFails.mapError {P : ε → Prop} {Q : ε' → Prop} {f : ε → ε'} {x : Except ε α}
    (hx : OnlyFails P x) (hf : ∀ e, P e → Q (f e)) : OnlyFails Q (x.mapError f) := by
  intro e h
  cases x with
  | error e' =>
    obtain rfl := Except.error.inj h
    exact hf e' (hx e' rfl)
  | ok a => cases h

theorem OnlyFails.map {P : ε → Prop} {x : Except ε α} (hx : OnlyFails P x) (f : α → β) :
    OnlyFails P (x.map f) := fun e h => hx e (map_eq_error_iff.1 h)

theorem OnlyFails.mono {P Q : ε → Prop} {x : Except ε α} (hx : OnlyFails P x)
    (hPQ : ∀ e, P e → Q e) : OnlyFails Q x := by
  intro e h
  exact hPQ e (hx e h)

/-! ## Pairs of computations -/

/-- Both computations fail with the same error, or both succeed with related results. -/
inductive Matches (R : α → β → Prop) : Except ε α → Except ε β → Prop
  | ok {a : α} {b : β} (h : R a b) : Matches R (.ok a) (.ok b)
  | error (e : ε) : Matches R (.error e) (.error e)

namespace Matches

variable {α' β' : Type} {R : α → β → Prop} {S : α' → β' → Prop} {x : Except ε α} {y : Except ε β}

theorem refl (x : Except ε α) : Matches (· = ·) x x := by
  cases x with
  | error e => exact .error e
  | ok a => exact .ok rfl

theorem bind {f : α → Except ε α'} {g : β → Except ε β'} (h : Matches R x y)
    (hfg : ∀ a b, R a b → Matches S (f a) (g b)) : Matches S (x >>= f) (y >>= g) := by
  cases h with
  | ok h => exact hfg _ _ h
  | error e => exact .error e

theorem mono {S : α → β → Prop} (h : Matches R x y) (hRS : ∀ a b, R a b → S a b) :
    Matches S x y := by
  cases h with
  | ok h => exact .ok (hRS _ _ h)
  | error e => exact .error e

theorem of_map {f : α → β} (hy : y = x.map f) (hR : ∀ a, x = .ok a → R a (f a)) :
    Matches R x y := by
  subst hy
  cases x with
  | error e => exact .error e
  | ok a => exact .ok (hR a rfl)

theorem map_eq {γ : Type} {f : α → γ} {g : β → γ} (h : Matches (fun a b => f a = g b) x y) :
    x.map f = y.map g := by
  cases h with
  | ok h => exact congrArg Except.ok h
  | error e => rfl

theorem of_map_eq {γ : Type} {f : α → γ} {g : β → γ} (h : x.map f = y.map g) :
    Matches (fun a b => f a = g b) x y := by
  cases x with
  | error e =>
    cases y with
    | error e' =>
      obtain rfl := Except.error.inj h
      exact .error _
    | ok b => cases h
  | ok a =>
    cases y with
    | error e => cases h
    | ok b => exact .ok (Except.ok.inj h)

/-- Two computations match that match a third one. -/
theorem join {γ : Type} {T : α → γ → Prop} {U : β → γ → Prop} {z : Except ε γ}
    (hx : Matches T x z) (hy : Matches U y z) : Matches (fun a b => ∃ c, T a c ∧ U b c) x y := by
  cases hx with
  | ok hx =>
    cases hy with
    | ok hy => exact .ok ⟨_, hx, hy⟩
  | error e =>
    cases hy
    exact .error e

/-- Both fail with the same error, or both succeed. -/
theorem cases_ok (h : Matches R x y) :
    (∃ e, x = .error e ∧ y = .error e) ∨ ∃ a b, x = .ok a ∧ y = .ok b ∧ R a b := by
  cases h with
  | ok h => exact .inr ⟨_, _, rfl, rfl, h⟩
  | error e => exact .inl ⟨e, rfl, rfl⟩

end Matches

/-! ## With a state -/

theorem exists_of_stateT_bind_eq_ok {x : StateT σ (Except ε) α} {f : α → StateT σ (Except ε) β}
    {s : σ} {b : β × σ} (h : (x >>= f) s = .ok b) : ∃ a s', x s = .ok (a, s') ∧ f a s' = .ok b := by
  obtain ⟨⟨a, s'⟩, hx, hf⟩ := exists_of_bind_eq_ok (x := x s) (f := fun p => f p.1 p.2) h
  exact ⟨a, s', hx, hf⟩

theorem stateT_bind_eq_ok {x : StateT σ (Except ε) α} {f : α → StateT σ (Except ε) β} {s s' : σ}
    {a : α} (h : x s = .ok (a, s')) : (x >>= f) s = f a s' := by
  show (x s >>= fun p => f p.1 p.2) = f a s'
  rw [h]
  rfl

theorem stateT_bind_eq_error {x : StateT σ (Except ε) α} {f : α → StateT σ (Except ε) β} {s : σ}
    {e : ε} (h : x s = .error e) : (x >>= f) s = .error e := by
  show (x s >>= fun p => f p.1 p.2) = .error e
  rw [h]
  rfl

theorem stateT_get_bind (f : σ → StateT σ (Except ε) β) (s : σ) :
    ((get : StateT σ (Except ε) σ) >>= f) s = f s s := rfl

theorem stateT_modify_bind (g : σ → σ) (f : PUnit → StateT σ (Except ε) β) (s : σ) :
    ((modify g : StateT σ (Except ε) PUnit) >>= f) s = f ⟨⟩ (g s) := rfl

theorem exists_of_lift_bind_eq_ok {x : Except ε α} {f : α → StateT σ (Except ε) β} {s : σ}
    {b : β × σ} (h : ((liftM x : StateT σ (Except ε) α) >>= f) s = .ok b) :
    ∃ a, x = .ok a ∧ f a s = .ok b := by
  cases x with
  | error e => cases h
  | ok a => exact ⟨a, rfl, h⟩

theorem lift_bind_eq_ok {x : Except ε α} {f : α → StateT σ (Except ε) β} {s : σ} {a : α}
    (h : x = .ok a) : ((liftM x : StateT σ (Except ε) α) >>= f) s = f a s := by
  rw [h]
  rfl

theorem lift_bind_eq_error {x : Except ε α} {f : α → StateT σ (Except ε) β} {s : σ} {e : ε}
    (h : x = .error e) : ((liftM x : StateT σ (Except ε) α) >>= f) s = .error e := by
  rw [h]
  rfl

/-- A step goes wrong, or the steps behind it do. -/
theorem OnlyFails.stateT_bind {P : ε → Prop} {x : StateT σ (Except ε) α}
    {f : α → StateT σ (Except ε) β} {s : σ} (hx : OnlyFails P (x s))
    (hf : ∀ a s', x s = .ok (a, s') → OnlyFails P (f a s')) : OnlyFails P ((x >>= f) s) := by
  intro e h
  cases hresult : x s with
  | error e' =>
    rw [stateT_bind_eq_error hresult] at h
    obtain rfl := Except.error.inj h
    exact hx _ hresult
  | ok r =>
    rw [stateT_bind_eq_ok hresult] at h
    exact hf r.1 r.2 hresult e h

theorem OnlyFails.lift {P : ε → Prop} {x : Except ε α} (hx : OnlyFails P x) (s : σ) :
    OnlyFails P ((liftM x : StateT σ (Except ε) α) s) := by
  intro e h
  cases x with
  | error e' =>
    obtain rfl := Except.error.inj h
    exact hx _ rfl
  | ok a => cases h

theorem OnlyFails.lift_bind {P : ε → Prop} {x : Except ε α} {f : α → StateT σ (Except ε) β}
    {s : σ} (hx : OnlyFails P x) (hf : ∀ a, x = .ok a → OnlyFails P (f a s)) :
    OnlyFails P (((liftM x : StateT σ (Except ε) α) >>= f) s) := by
  intro e h
  cases hresult : x with
  | error e' =>
    rw [lift_bind_eq_error hresult] at h
    obtain rfl := Except.error.inj h
    exact hx _ hresult
  | ok a =>
    rw [lift_bind_eq_ok hresult] at h
    exact hf a hresult e h

/-- From each state, both computations fail with the same error, or both succeed with related
results and leave the same state. -/
def MatchesT (R : α → β → Prop) (x : StateT σ (Except ε) α) (y : StateT σ (Except ε) β) : Prop :=
  ∀ s, Matches (fun r r' => R r.1 r'.1 ∧ r.2 = r'.2) (x s) (y s)

namespace MatchesT

variable {α' β' : Type} {R : α → β → Prop} {S : α' → β' → Prop} {x : StateT σ (Except ε) α}
  {y : StateT σ (Except ε) β}

theorem pure {a : α} {b : β} (h : R a b) :
    MatchesT R (pure a : StateT σ (Except ε) α) (pure b) := fun _ => .ok ⟨h, rfl⟩

theorem refl (x : StateT σ (Except ε) α) : MatchesT (· = ·) x x := by
  intro s
  refine (Matches.refl (x s)).mono ?_
  rintro r _ rfl
  exact ⟨rfl, rfl⟩

theorem bind {f : α → StateT σ (Except ε) α'} {g : β → StateT σ (Except ε) β'}
    (h : MatchesT R x y) (hfg : ∀ a b, R a b → MatchesT S (f a) (g b)) :
    MatchesT S (x >>= f) (y >>= g) := by
  intro s
  refine Matches.bind (h s) ?_
  rintro ⟨a, s'⟩ ⟨b, _⟩ ⟨hab, rfl⟩
  exact hfg a b hab s'

theorem lift {x : Except ε α} {y : Except ε β} (h : Matches R x y) :
    MatchesT R (liftM x : StateT σ (Except ε) α) (liftM y) := by
  intro s
  cases h with
  | ok h => exact .ok ⟨h, rfl⟩
  | error e => exact .error e

end MatchesT

end StyledTemplate
