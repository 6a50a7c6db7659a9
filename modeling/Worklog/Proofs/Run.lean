import Worklog.Run

namespace Worklog

theorem except_map_eq_ok_iff {ε α β : Type} {x : Except ε α} {f : α → β} {b : β} :
    x.map f = .ok b ↔ ∃ a, x = .ok a ∧ f a = b := by
  cases x with
  | error e => exact ⟨nofun, fun ⟨_, h, _⟩ => nomatch h⟩
  | ok a => exact ⟨fun h => ⟨a, rfl, Except.ok.inj h⟩, fun ⟨_, h, hb⟩ => by cases h; exact congrArg _ hb⟩

theorem except_map_map {ε α β γ : Type} {f : α → β} {g : β → γ} (x : Except ε α) :
    (x.map f).map g = x.map fun a => g (f a) := by
  cases x with
  | error e => rfl
  | ok a => rfl

theorem except_mapError_eq_ok_iff {ε δ α : Type} {x : Except ε α} {f : ε → δ} {a : α} :
    x.mapError f = .ok a ↔ x = .ok a := by
  cases x with
  | error e => exact ⟨nofun, nofun⟩
  | ok b =>
    constructor
    · intro h
      cases h
      rfl
    · intro h
      cases h
      rfl

/-- A sequence of checks succeeds when each of them does. -/
theorem except_bind_eq_ok_iff {ε α β : Type} {x : Except ε α} {f : α → Except ε β} {b : β} :
    (x >>= f) = .ok b ↔ ∃ a, x = .ok a ∧ f a = .ok b := by
  cases x <;> simp [Bind.bind, Except.bind]

/-- A sequence of checks fails when the first of them fails or what follows it does. -/
theorem except_bind_eq_error_iff {ε α β : Type} {x : Except ε α} {f : α → Except ε β} {e : ε} :
    (x >>= f) = .error e ↔ x = .error e ∨ ∃ a, x = .ok a ∧ f a = .error e := by
  cases x <;> simp [Bind.bind, Except.bind]

/-- Two continuations of one checked value, of which one gives what the other gives under a map. -/
theorem except_bind_map {ε α β γ : Type} {x : Except ε α} {f : α → Except ε β} {g : α → Except ε γ}
    {m : β → γ} (h : ∀ a, x = .ok a → g a = (f a).map m) : (x >>= g) = (x >>= f).map m := by
  cases x with
  | error e => rfl
  | ok a => exact h a rfl

namespace Run

variable {ε σ τ α β : Type} {p : σ → τ} {x : Run ε σ α} {f : α → Run ε σ β}

/-- A sequence ends as its second part does, unless the first part fails. -/
theorem bind_eq_iff {s t : σ} {r : Except ε β} :
    (x >>= f) s = (r, t) ↔
      (∃ a u, x s = (.ok a, u) ∧ f a u = (r, t)) ∨ ∃ e, x s = (.error e, t) ∧ r = .error e := by
  rcases hx : x s with ⟨first, u⟩
  cases first with
  | ok a =>
    rw [bind_of_ok hx]
    constructor
    · intro h
      exact .inl ⟨a, u, rfl, h⟩
    · rintro (⟨b, v, hb, h⟩ | ⟨e, he, _⟩)
      · cases hb
        exact h
      · cases he
  | error e =>
    rw [bind_of_error hx]
    constructor
    · intro h
      cases h
      exact .inr ⟨e, rfl, rfl⟩
    · rintro (⟨b, v, hb, _⟩ | ⟨e', he, rfl⟩)
      · cases hb
      · cases he
        rfl

theorem map_eq_ok {g : α → β} {s t : σ} {b : β} (h : (do return g (← x) : Run ε σ β) s = (.ok b, t)) :
    ∃ a, b = g a := by
  obtain ⟨a, _, _, hrest⟩ | ⟨_, _, hr⟩ := bind_eq_iff.mp h
  · cases hrest
    exact ⟨a, rfl⟩
  · cases hr

/-- A part of the state stays as it is, however the run ends. -/
def Keeps (p : σ → τ) (x : Run ε σ α) : Prop := ∀ s, p (x s).2 = p s

/-- A part of the state stays as it is if the run fails. -/
def Spares (p : σ → τ) (x : Run ε σ α) : Prop := ∀ s e t, x s = (.error e, t) → p t = p s

/-- The run cannot fail. -/
def Succeeds (x : Run ε σ α) : Prop := ∀ s e t, x s ≠ (.error e, t)

theorem Keeps.after (h : Keeps p x) {s t : σ} {r : Except ε α} (hx : x s = (r, t)) : p t = p s := by
  have hkept := h s
  rwa [hx] at hkept

theorem Keeps.spares (h : Keeps p x) : Spares p x := fun _ _ _ hx => h.after hx

theorem Keeps.bind (hx : Keeps p x) (hf : ∀ a, Keeps p (f a)) : Keeps p (x >>= f) := by
  intro s
  rcases hbind : (x >>= f) s with ⟨r, t⟩
  obtain ⟨a, u, hfirst, hrest⟩ | ⟨e, hfirst, _⟩ := bind_eq_iff.mp hbind
  · exact ((hf a).after hrest).trans (hx.after hfirst)
  · exact hx.after hfirst

theorem Keeps.bind_spares (hx : Keeps p x) (hf : ∀ a, Spares p (f a)) : Spares p (x >>= f) := by
  intro s e t hbind
  obtain ⟨a, u, hfirst, hrest⟩ | ⟨_, hfirst, _⟩ := bind_eq_iff.mp hbind
  · exact (hf a u e t hrest).trans (hx.after hfirst)
  · exact hx.after hfirst

theorem Spares.bind_succeeds (hx : Spares p x) (hf : ∀ a, Succeeds (f a)) : Spares p (x >>= f) := by
  intro s e t hbind
  obtain ⟨a, u, _, hrest⟩ | ⟨e', hfirst, _⟩ := bind_eq_iff.mp hbind
  · exact absurd hrest (hf a u e t)
  · exact hx s e' t hfirst

theorem Succeeds.bind (hx : Succeeds x) (hf : ∀ a, Succeeds (f a)) : Succeeds (x >>= f) := by
  intro s e t hbind
  obtain ⟨a, u, _, hrest⟩ | ⟨e', hfirst, _⟩ := bind_eq_iff.mp hbind
  · exact hf a u e t hrest
  · exact hx s e' t hfirst

theorem Keeps.handle {f : ε → Run ε σ α} (hx : Keeps p x) (hf : ∀ e, Keeps p (f e)) :
    Keeps p (handle x f) := by
  intro s
  unfold Run.handle
  rcases hfirst : x s with ⟨e | a, t⟩
  · exact (hf e t).trans (hx.after hfirst)
  · exact hx.after hfirst

private theorem id_map (x : Run ε σ α) : id <$> x = x := by
  funext s
  show andThen x pure s = x s
  rcases hx : x s with ⟨_ | _, _⟩
  · simp only [andThen, hx]
  · simp only [andThen, hx]
    rfl

private theorem bind_assoc' {γ : Type} (x : Run ε σ α) (f : α → Run ε σ β) (g : β → Run ε σ γ) :
    x >>= f >>= g = x >>= fun a => f a >>= g := by
  funext s
  rcases hx : x s with ⟨_ | a, t⟩
  · rw [bind_of_error hx, bind_of_error (bind_of_error hx)]
  · rw [bind_of_ok hx]
    rcases hf : f a t with ⟨_ | b, u⟩
    · rw [bind_of_error hf, bind_of_error ((bind_of_ok hx).trans hf)]
    · rw [bind_of_ok hf, bind_of_ok ((bind_of_ok hx).trans hf)]

instance : LawfulMonad (Run ε σ) := LawfulMonad.mk' _ id_map (fun _ _ => rfl) bind_assoc'

theorem keeps_pure (a : α) : Keeps p (pure a : Run ε σ α) := fun _ => rfl

theorem succeeds_pure (a : α) : Succeeds (pure a : Run ε σ α) := fun _ _ _ h => by cases h

theorem keeps_ofExcept (r : Except ε α) : Keeps p (ofExcept r : Run ε σ α) := fun _ => rfl

theorem keeps_fail (e : ε) : Keeps p (fail e : Run ε σ α) := fun _ => rfl

end Run
end Worklog
