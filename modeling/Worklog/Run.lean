namespace Worklog

/-- A computation on a state `σ` that ends in a value or an error. The state survives both ends, so a run that
    fails has still done what it did before. -/
def Run (ε σ α : Type) : Type := σ → Except ε α × σ

namespace Run

variable {ε δ σ τ α β : Type}

/-- Goes on with the value of a run, unless it failed. -/
def andThen (x : Run ε σ α) (f : α → Run ε σ β) : Run ε σ β := fun s =>
  match x s with
  | (.ok a, s) => f a s
  | (.error e, s) => (.error e, s)

instance : Monad (Run ε σ) where
  pure a := fun s => (.ok a, s)
  bind := andThen

/-- Ends with an error. -/
def fail (e : ε) : Run ε σ α := fun s => (.error e, s)

/-- Ends as a checked value says. -/
def ofExcept (r : Except ε α) : Run ε σ α := fun s => (r, s)

/-- Looks at the state. -/
def look (f : σ → α) : Run ε σ α := fun s => (.ok (f s), s)

/-- Changes the state. -/
def change (f : σ → σ) : Run ε σ Unit := fun s => (.ok (), f s)

/-- Goes on after an error. -/
def handle (x : Run ε σ α) (f : ε → Run ε σ α) : Run ε σ α := fun s =>
  match x s with
  | (.ok a, s) => (.ok a, s)
  | (.error e, s) => f e s

/-- Renames the error of a run. -/
def mapError (f : ε → δ) (x : Run ε σ α) : Run δ σ α := fun s =>
  match x s with
  | (.ok a, s) => (.ok a, s)
  | (.error e, s) => (.error (f e), s)

/-- Runs on a part of a larger state. -/
def within (get : τ → σ) (set : σ → τ → τ) (x : Run ε σ α) : Run ε τ α := fun t =>
  ((x (get t)).1, set (x (get t)).2 t)

theorem bind_of_ok {x : Run ε σ α} {f : α → Run ε σ β} {s t : σ} {a : α}
    (h : x s = (.ok a, t)) : (x >>= f) s = f a t := by
  show andThen x f s = _
  simp only [andThen, h]

theorem bind_of_error {x : Run ε σ α} {f : α → Run ε σ β} {s t : σ} {e : ε}
    (h : x s = (.error e, t)) : (x >>= f) s = (.error e, t) := by
  show andThen x f s = _
  simp only [andThen, h]

end Run
end Worklog
