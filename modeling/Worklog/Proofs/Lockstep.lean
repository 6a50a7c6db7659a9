import Worklog.Run

namespace Worklog

/-- Two ends of runs: related values, or related errors. -/
inductive EndsAlike {ε δ α β : Type} (E : ε → δ → Prop) (V : α → β → Prop) :
    Except ε α → Except δ β → Prop
  | ok {a : α} {b : β} (h : V a b) : EndsAlike E V (.ok a) (.ok b)
  | error {e : ε} {f : δ} (h : E e f) : EndsAlike E V (.error e) (.error f)

theorem EndsAlike.refl {ε α : Type} {E : ε → ε → Prop} (h : ∀ e, E e e) (r : Except ε α) :
    EndsAlike E Eq r r := by
  cases r with
  | ok a => exact .ok rfl
  | error e => exact .error (h e)

namespace Run

variable {ε δ σ τ α β γ η : Type} {R : σ → τ → Prop} {E : ε → ε → Prop} {V : α → β → Prop} {W : γ → η → Prop}

/-- Runs in lockstep: started on related states they end with related values or related errors, on related
    states again. -/
def Lockstep (R : σ → τ → Prop) (E : ε → ε → Prop) (V : α → β → Prop) (x : Run ε σ α) (y : Run ε τ β) :
    Prop :=
  ∀ s t, R s t → EndsAlike E V (x s).1 (y t).1 ∧ R (x s).2 (y t).2

theorem lockstep_pure {a : α} {b : β} (h : V a b) :
    Lockstep R E V (pure a : Run ε σ α) (pure b : Run ε τ β) := fun _ _ hst => ⟨.ok h, hst⟩

theorem lockstep_fail {e f : ε} (h : E e f) : Lockstep R E V (fail e : Run ε σ α) (fail f : Run ε τ β) :=
  fun _ _ hst => ⟨.error h, hst⟩

theorem lockstep_ofExcept {r : Except ε α} {q : Except ε β} (h : EndsAlike E V r q) :
    Lockstep R E V (ofExcept r : Run ε σ α) (ofExcept q : Run ε τ β) := fun _ _ hst => ⟨h, hst⟩

theorem lockstep_look {f : σ → α} {g : τ → β} (h : ∀ s t, R s t → V (f s) (g t)) :
    Lockstep R E V (look f) (look g) := fun s t hst => ⟨.ok (h s t hst), hst⟩

theorem lockstep_change {f : σ → σ} {g : τ → τ} (h : ∀ s t, R s t → R (f s) (g t)) :
    Lockstep R E Eq (change f) (change g) := fun s t hst => ⟨.ok rfl, h s t hst⟩

theorem Lockstep.bind {x : Run ε σ α} {y : Run ε τ β} {f : α → Run ε σ γ} {g : β → Run ε τ η}
    (hxy : Lockstep R E V x y) (hfg : ∀ a b, V a b → Lockstep R E W (f a) (g b)) :
    Lockstep R E W (x >>= f) (y >>= g) := by
  intro s t hst
  obtain ⟨hends, hleft⟩ := hxy s t hst
  rcases hx : x s with ⟨r, u⟩
  rcases hy : y t with ⟨q, v⟩
  rw [hx, hy] at hends hleft
  cases hends with
  | ok hab =>
    rw [bind_of_ok hx, bind_of_ok hy]
    exact hfg _ _ hab u v hleft
  | error hef =>
    rw [bind_of_error hx, bind_of_error hy]
    exact ⟨.error hef, hleft⟩

/-- A sequence whose first parts answer the same. -/
theorem Lockstep.next {x : Run ε σ α} {y : Run ε τ α} {f : α → Run ε σ γ} {g : α → Run ε τ η}
    (hxy : Lockstep R E Eq x y) (hfg : ∀ a, Lockstep R E W (f a) (g a)) :
    Lockstep R E W (x >>= f) (y >>= g) := by
  apply hxy.bind
  rintro a _ rfl
  exact hfg a

theorem Lockstep.handle {x : Run ε σ α} {y : Run ε τ β} {f : ε → Run ε σ α} {g : ε → Run ε τ β}
    (hxy : Lockstep R E V x y) (hfg : ∀ e e', E e e' → Lockstep R E V (f e) (g e')) :
    Lockstep R E V (handle x f) (handle y g) := by
  intro s t hst
  obtain ⟨hends, hleft⟩ := hxy s t hst
  unfold Run.handle
  rcases hx : x s with ⟨r, u⟩
  rcases hy : y t with ⟨q, v⟩
  rw [hx, hy] at hends hleft
  cases hends with
  | ok hab => exact ⟨.ok hab, hleft⟩
  | error hef => exact hfg _ _ hef u v hleft

theorem Lockstep.mapError {E' : δ → δ → Prop} {f : ε → δ} {x : Run ε σ α} {y : Run ε τ β}
    (hxy : Lockstep R E V x y) (hf : ∀ e e', E e e' → E' (f e) (f e')) :
    Lockstep R E' V (x.mapError f) (y.mapError f) := by
  intro s t hst
  obtain ⟨hends, hleft⟩ := hxy s t hst
  unfold Run.mapError
  rcases hx : x s with ⟨r, u⟩
  rcases hy : y t with ⟨q, v⟩
  rw [hx, hy] at hends hleft
  cases hends with
  | ok hab => exact ⟨.ok hab, hleft⟩
  | error hef => exact ⟨.error (hf _ _ hef), hleft⟩

end Run
end Worklog
