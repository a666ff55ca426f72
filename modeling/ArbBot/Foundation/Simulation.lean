import ArbBot.Foundation.Runs

/-!
# Runs that look the same

Two machines are compared through what is heard of their steps; a step of which nothing is
heard is silent.

* `Trace.matched`: when each step of one machine is matched by a run of the other that sounds
  the same, so is each run.
* `Trace.agree`: when silent steps say nothing and keep related states related, and steps that
  sound the same say the same, two runs that sound the same say the same.
-/

namespace Foundation

namespace Machine

variable {σ σ' ι ι' κ ω : Type*} {M : Machine σ ι} {M' : Machine σ' ι'} {R : σ → σ' → Prop}
  {heard : Entry σ ι → Option κ} {heard' : Entry σ' ι' → Option κ}
  {s s' : σ} {t t' : σ'} {steps : List (Entry σ ι)} {steps' : List (Entry σ' ι')}

theorem Trace.append {u v w : σ} {earlier later : List (Entry σ ι)}
    (trace : M.Trace u earlier v) (trace' : M.Trace v later w) :
    M.Trace u (earlier ++ later) w := by
  induction trace' with
  | nil => rwa [List.append_nil]
  | snoc _ taken ih =>
      rw [← List.append_assoc]
      exact .snoc ih taken

/-- Each step of `M` is matched by a run of `M'` that sounds the same. -/
def Matches (M : Machine σ ι) (M' : Machine σ' ι') (R : σ → σ' → Prop)
    (heard : Entry σ ι → Option κ) (heard' : Entry σ' ι' → Option κ) : Prop :=
  ∀ s i s' t, R s t → M.step s i s' → ∃ steps t', M'.Trace t steps t' ∧ R s' t' ∧
    steps.filterMap heard' = (heard ⟨s, i, s'⟩).toList

/-- **The rule of matching runs.** -/
theorem Trace.matched (step : Matches M M' R heard heard') (trace : M.Trace s steps s')
    (related : R s t) :
    ∃ steps' t', M'.Trace t steps' t' ∧ R s' t' ∧
      steps'.filterMap heard' = steps.filterMap heard := by
  induction trace with
  | nil => exact ⟨[], t, .nil t, related, rfl⟩
  | @snoc u v i earlier _ taken ih =>
      rcases ih with ⟨before, mid, first, between, same⟩
      rcases step u i v mid between taken with ⟨after, last, second, related', same'⟩
      refine ⟨before ++ after, last, first.append second, related', ?_⟩
      rw [List.filterMap_append, List.filterMap_append, same, same']
      cases sound : heard ⟨u, i, v⟩ <;> simp [sound]

/-- A silent step says nothing, and leaves related states related. -/
def SilentlyKeeps (M : Machine σ ι) (R : σ → σ' → Prop) (heard : Entry σ ι → Option κ)
    (said : Entry σ ι → List ω) : Prop :=
  ∀ s i s' t, R s t → M.step s i s' → heard ⟨s, i, s'⟩ = none → said ⟨s, i, s'⟩ = [] ∧ R s' t

theorem SilentlyKeeps.snoc {said : Entry σ ι → List ω} {told : List ω} {i : ι}
    (silent : SilentlyKeeps M R heard said) (before : steps.flatMap said = told ∧ R s t)
    (taken : M.step s i s') (quiet : heard ⟨s, i, s'⟩ = none) :
    (steps ++ [(⟨s, i, s'⟩ : Entry σ ι)]).flatMap said = told ∧ R s' t := by
  obtain ⟨nothing, kept⟩ := silent s i s' t before.2 taken quiet
  refine ⟨?_, kept⟩
  rw [List.flatMap_append, List.flatMap_singleton, nothing, List.append_nil]
  exact before.1

theorem filterMap_snoc_of_none {entry : Entry σ ι} (quiet : heard entry = none) :
    (steps ++ [entry]).filterMap heard = steps.filterMap heard := by
  rw [List.filterMap_append, List.filterMap_cons_none quiet, List.filterMap_nil, List.append_nil]

theorem filterMap_snoc_of_some {entry : Entry σ ι} {k : κ} (sound : heard entry = some k) :
    (steps ++ [entry]).filterMap heard = steps.filterMap heard ++ [k] := by
  rw [List.filterMap_append, List.filterMap_cons_some sound, List.filterMap_nil]

/-- **The rule of agreement.** -/
theorem Trace.agree {said : Entry σ ι → List ω} {said' : Entry σ' ι' → List ω}
    (silent : SilentlyKeeps M R heard said)
    (silent' : SilentlyKeeps M' (fun t s => R s t) heard' said')
    (loud : ∀ s i s' t i' t', R s t → M.step s i s' → M'.step t i' t' →
      heard ⟨s, i, s'⟩ ≠ none → heard ⟨s, i, s'⟩ = heard' ⟨t, i', t'⟩ →
        said ⟨s, i, s'⟩ = said' ⟨t, i', t'⟩ ∧ R s' t')
    (trace : M.Trace s steps s') (trace' : M'.Trace t steps' t') (related : R s t)
    (same : steps.filterMap heard = steps'.filterMap heard') :
    steps.flatMap said = steps'.flatMap said' ∧ R s' t' := by
  induction trace generalizing steps' t' with
  | nil =>
      -- nothing is heard of the other run
      induction trace' with
      | nil => exact ⟨rfl, related⟩
      | @snoc mid last i later _ taken ih =>
          cases sound : heard' ⟨mid, i, last⟩ with
          | some k =>
              rw [filterMap_snoc_of_some sound] at same
              exact absurd same.symm (List.append_ne_nil_of_right_ne_nil _ (List.cons_ne_nil _ _))
          | none =>
              rw [filterMap_snoc_of_none sound] at same
              obtain ⟨told, between⟩ := ih same
              obtain ⟨told', kept⟩ := silent'.snoc ⟨told.symm, between⟩ taken sound
              exact ⟨told'.symm, kept⟩
  | @snoc u v i earlier first taken ih =>
      cases sound : heard ⟨u, i, v⟩ with
      | none =>
          rw [filterMap_snoc_of_none sound] at same
          exact silent.snoc (ih trace' same) taken sound
      | some k =>
          rw [filterMap_snoc_of_some sound] at same
          -- the silent steps at the end of the other run come off first
          induction trace' with
          | nil => exact absurd same (List.append_ne_nil_of_right_ne_nil _ (List.cons_ne_nil _ _))
          | @snoc mid last i' before first' taken' ih' =>
              cases sound' : heard' ⟨mid, i', last⟩ with
              | none =>
                  rw [filterMap_snoc_of_none sound'] at same
                  obtain ⟨told, between⟩ := ih' same
                  obtain ⟨told', kept⟩ := silent'.snoc ⟨told.symm, between⟩ taken' sound'
                  exact ⟨told'.symm, kept⟩
              | some k' =>
                  rw [filterMap_snoc_of_some sound'] at same
                  obtain ⟨start, final⟩ := List.append_inj' same rfl
                  obtain rfl : k = k' := (List.cons.inj final).1
                  obtain ⟨told, between⟩ := ih first' start
                  have hears : heard ⟨u, i, v⟩ ≠ none := by rw [sound]; exact nofun
                  obtain ⟨told', kept⟩ :=
                    loud u i v mid i' last between taken taken' hears (sound.trans sound'.symm)
                  refine ⟨?_, kept⟩
                  rw [List.flatMap_append, List.flatMap_append, List.flatMap_singleton,
                    List.flatMap_singleton, told, told']

end Machine

end Foundation
