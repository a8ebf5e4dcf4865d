import Mathlib

/-!
# When a chain of steps succeeds

A chain in `Except` succeeds exactly if every step does, each on what the one before it gave. Two
chains agree if they do step by step.
-/

namespace BuyingClub

variable {ε ε' α β : Type}

theorem bind_eq_ok_iff {x : Except ε α} {next : α → Except ε β} {b : β} :
    x >>= next = .ok b ↔ ∃ a, x = .ok a ∧ next a = .ok b := by
  cases x <;> simp [bind, Except.bind]

theorem map_eq_ok_iff {x : Except ε α} {f : α → β} {b : β} :
    x.map f = .ok b ↔ ∃ a, x = .ok a ∧ f a = b := by
  cases x <;> simp [Except.map]

theorem mapError_eq_ok_iff {x : Except ε α} {f : ε → ε'} {a : α} :
    x.mapError f = .ok a ↔ x = .ok a := by
  cases x <;> simp [Except.mapError]

theorem pure_eq_ok_iff {a b : α} : (pure a : Except ε α) = .ok b ↔ a = b := by
  simp [pure, Except.pure]

theorem throw_eq_ok_iff {e : ε} {b : α} : (throw e : Except ε α) = .ok b ↔ False := by
  simp [throw, throwThe, MonadExceptOf.throw]

theorem checkIf_eq_ok_iff {c : Prop} [Decidable c] {check : Except ε Unit}
    {next : Unit → Except ε β} {b : β} :
    (if c then check >>= next else next ()) = .ok b ↔ (c → check = .ok ()) ∧ next () = .ok b := by
  split
  · simp only [bind_eq_ok_iff, *, true_implies]
    exact ⟨fun ⟨_, h⟩ => h, fun h => ⟨(), h⟩⟩
  · simp [*]

/-! ## Two chains -/

/-- Both fail alike, or both succeed with results that are related. -/
inductive Agree (R : α → β → Prop) : Except ε α → Except ε β → Prop
  | ok {a : α} {b : β} (related : R a b) : Agree R (.ok a) (.ok b)
  | error (e : ε) : Agree R (.error e) (.error e)

namespace Agree

variable {γ δ : Type} {R R' : α → β → Prop} {S : γ → δ → Prop} {x : Except ε α} {y : Except ε β}

theorem bind {next : α → Except ε γ} {next' : β → Except ε δ} (h : Agree R x y)
    (nexts : ∀ a b, R a b → Agree S (next a) (next' b)) : Agree S (x >>= next) (y >>= next') := by
  cases h with
  | ok related => exact nexts _ _ related
  | error e => exact .error e

theorem bind_same {next : α → Except ε γ} {next' : α → Except ε δ}
    (nexts : ∀ a, Agree S (next a) (next' a)) : Agree S (x >>= next) (x >>= next') := by
  cases x with
  | ok a => exact nexts a
  | error e => exact .error e

theorem ite {c : Prop} [Decidable c] {z : Except ε α} {w : Except ε β} (yes : c → Agree R x y)
    (no : ¬c → Agree R z w) : Agree R (if c then x else z) (if c then y else w) := by
  split
  · exact yes ‹_›
  · exact no ‹_›

theorem checkIf {c : Prop} [Decidable c] {check : Except ε Unit} {next : Unit → Except ε γ}
    {next' : Unit → Except ε δ} (nexts : Agree S (next ()) (next' ())) :
    Agree S (if c then check >>= next else next ()) (if c then check >>= next' else next' ()) :=
  .ite (fun _ => .bind_same fun _ => nexts) fun _ => nexts

theorem imp (h : Agree R x y) (weaker : ∀ a b, x = .ok a → y = .ok b → R a b → R' a b) :
    Agree R' x y := by
  cases h with
  | ok related => exact .ok (weaker _ _ rfl rfl related)
  | error e => exact .error e

end Agree

end BuyingClub
