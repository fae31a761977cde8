import PropertyList.Run

/-! Laws of runs: notices add up, a failure stops the run, and a run that refines another one has
its result without any notice of its own. -/
namespace PropertyList

/-- Two steps that may fail have a result just if both have one. -/
theorem except_bind_eq_ok {ε α β : Type} {x : Except ε α} {next : α → Except ε β} {b : β} :
    x >>= next = .ok b ↔ ∃ a, x = .ok a ∧ next a = .ok b := by
  cases x <;> simp [bind, Except.bind]

theorem except_map_eq_ok {ε α β : Type} {x : Except ε α} {f : α → β} {b : β} :
    x.map f = .ok b ↔ ∃ a, x = .ok a ∧ f a = b := by
  cases x <;> simp [Except.map]

theorem exists_except_bind_iff {ε α β : Type} {x : Except ε α} {next : α → Except ε β} :
    (∃ b, x >>= next = .ok b) ↔ ∃ a, x = .ok a ∧ ∃ b, next a = .ok b := by
  cases x <;> simp [bind, Except.bind]

theorem exists_except_map_iff {ε α β : Type} {x : Except ε α} {f : α → β} :
    (∃ b, x.map f = .ok b) ↔ ∃ a, x = .ok a := by
  cases x <;> simp [Except.map]

/-- Two results are put together where there are both. -/
theorem except_both_eq_ok {ε α β γ : Type} {x : Except ε α} {y : Except ε β} {f : α → β → γ}
    {c : γ} :
    (do let a ← x; let b ← y; pure (f a b)) = .ok c ↔
      ∃ a b, x = .ok a ∧ y = .ok b ∧ f a b = c := by
  cases x <;> cases y <;> simp [bind, Except.bind, pure, Except.pure]

theorem exists_except_both_iff {ε α β γ : Type} {x : Except ε α} {y : Except ε β}
    {f : α → β → γ} :
    (∃ c, (do let a ← x; let b ← y; pure (f a b)) = .ok c) ↔
      (∃ a, x = .ok a) ∧ ∃ b, y = .ok b := by
  cases x <;> cases y <;> simp [bind, Except.bind, pure, Except.pure]

namespace Run

variable {α β : Type}

@[ext] theorem ext {a b : Run α} (notices : a.notices = b.notices)
    (outcome : a.outcome = b.outcome) : a = b := by
  cases a
  cases b
  simp_all

theorem pure_def (a : α) : (pure a : Run α) = ⟨[], .ok a⟩ := rfl

theorem bind_ok (notices : List Notice) (a : α) (next : α → Run β) :
    (⟨notices, .ok a⟩ : Run α) >>= next =
      ⟨notices ++ (next a).notices, (next a).outcome⟩ := rfl

theorem bind_error (notices : List Notice) (failure : Failure) (next : α → Run β) :
    (⟨notices, .error failure⟩ : Run α) >>= next = ⟨notices, .error failure⟩ := rfl

instance : LawfulMonad Run :=
  LawfulMonad.mk' Run
    (by
      intro α run
      rcases run with ⟨notices, _ | a⟩
      · rfl
      · change (⟨notices ++ [], .ok a⟩ : Run α) = _
        rw [List.append_nil])
    (by intros; rfl)
    (by
      intro α β γ run first second
      rcases run with ⟨notices, _ | a⟩
      · rfl
      · rw [bind_ok, bind_ok]
        rcases first a with ⟨more, _ | b⟩
        · rfl
        · simp [bind_ok])

@[simp] theorem fail_bind (failure : Failure) (next : α → Run β) :
    Run.fail failure >>= next = Run.fail failure := rfl

@[simp] theorem fault_bind (fault : DecodeFault) (next : α → Run β) :
    Run.fault fault >>= next = Run.fault fault := rfl

@[simp] theorem ofExcept_ok (a : α) : Run.ofExcept (.ok a) = pure a := rfl

@[simp] theorem ofExcept_error (failure : Failure) :
    Run.ofExcept (.error failure : Except Failure α) = Run.fail failure := rfl

theorem ofExcept_bind (result : Except Failure α) (next : α → Except Failure β) :
    Run.ofExcept (result >>= next) = Run.ofExcept result >>= fun a => Run.ofExcept (next a) := by
  cases result <;> rfl

@[simp] theorem outcome_pure (a : α) : (pure a : Run α).outcome = .ok a := rfl

@[simp] theorem outcome_fail (failure : Failure) :
    (Run.fail failure : Run α).outcome = .error failure := rfl

@[simp] theorem outcome_fault (fault : DecodeFault) :
    (Run.fault fault : Run α).outcome = .error (.undecodable fault) := rfl

@[simp] theorem outcome_noting (notice : Notice) (a : α) :
    (Run.noting notice a).outcome = .ok a := rfl

/-- A run of two steps has a result just if both steps have one. -/
theorem outcome_bind_eq_ok {run : Run α} {next : α → Run β} {b : β} :
    (run >>= next).outcome = .ok b ↔
      ∃ a, run.outcome = .ok a ∧ (next a).outcome = .ok b := by
  rcases run with ⟨notices, _ | a⟩
  · simp [bind_error]
  · simp [bind_ok]

/-- A run of two steps fails in the first of them, or in the second one behind the first. -/
theorem outcome_bind_eq_error {run : Run α} {next : α → Run β} {failure : Failure} :
    (run >>= next).outcome = .error failure ↔
      run.outcome = .error failure ∨
        ∃ a, run.outcome = .ok a ∧ (next a).outcome = .error failure := by
  rcases run with ⟨notices, _ | a⟩
  · simp [bind_error]
  · simp [bind_ok]

/-- The failure of a run. -/
def failure? (run : Run α) : Option Failure :=
  match run.outcome with
  | .ok _ => none
  | .error failure => some failure

theorem failure?_eq_some {run : Run α} {failure : Failure} :
    run.failure? = some failure ↔ run.outcome = .error failure := by
  rcases run with ⟨notices, _ | a⟩ <;> simp [failure?]

theorem failure?_eq_none {run : Run α} : run.failure? = none ↔ ∃ a, run.outcome = .ok a := by
  rcases run with ⟨notices, _ | a⟩ <;> simp [failure?]

@[simp] theorem failure?_pure (a : α) : (pure a : Run α).failure? = none := rfl

theorem failure?_bind (run : Run α) (next : α → Run β) :
    (run >>= next).failure? =
      match run.outcome with
      | .ok a => (next a).failure?
      | .error failure => some failure := by
  rcases run with ⟨notices, _ | a⟩
  · rfl
  · simp [bind_ok, failure?]

/-- If a second step fails in the same way behind every result, the first failure counts. -/
theorem failure?_bind_of_forall {run : Run α} {next : α → Run β} {other : Option Failure}
    (h : ∀ a, (next a).failure? = other) : (run >>= next).failure? = run.failure?.or other := by
  rw [failure?_bind]
  rcases run with ⟨notices, failure | a⟩
  · rfl
  · exact h a

/-- Steps that always have a result do not change the failure. -/
theorem failure?_bind_pure (run : Run α) (f : α → β) :
    (run >>= fun a => pure (f a)).failure? = run.failure? := by
  rw [failure?_bind]
  rcases run with ⟨notices, _ | a⟩ <;> rfl

/-- A run refines another one if the other one has its result, and has it without any notice. -/
def Refines (run other : Run α) : Prop := ∀ a, run.outcome = .ok a → other = pure a

namespace Refines

theorem of_pure (a : α) : Refines (pure a) (pure a) := by
  intro b hb
  cases hb
  rfl

theorem of_error {run : Run α} {failure : Failure} (h : run.outcome = .error failure)
    (other : Run α) : Refines run other := by
  intro a ha
  rw [h] at ha
  cases ha

theorem of_ofExcept (result : Except Failure α) :
    Refines (Run.ofExcept result) (Run.ofExcept result) := by
  rcases result with failure | a
  · exact of_error rfl _
  · exact of_pure a

theorem bind {run other : Run α} {next next' : α → Run β} (h : run.Refines other)
    (hnext : ∀ a, (next a).Refines (next' a)) : (run >>= next).Refines (other >>= next') := by
  intro b hb
  obtain ⟨a, ha, hab⟩ := outcome_bind_eq_ok.mp hb
  rw [h a ha, pure_bind]
  exact hnext a b hab

end Refines

/-- Every notice of a run and its failure satisfy two conditions. -/
structure Within (admits : Notice → Prop) (fails : Failure → Prop) (run : Run α) : Prop where
  notice : ∀ notice ∈ run.notices, admits notice
  failure : ∀ failure, run.outcome = .error failure → fails failure

namespace Within

variable {admits : Notice → Prop} {fails : Failure → Prop}

theorem of_pure (a : α) : Within admits fails (pure a : Run α) := by
  constructor
  · intro notice hmem
    cases hmem
  · intro f hf
    cases hf

theorem of_fail {failure : Failure} (h : fails failure) :
    Within admits fails (Run.fail failure : Run α) := by
  constructor
  · intro notice hmem
    cases hmem
  · intro f hf
    cases hf
    exact h

theorem of_noting {notice : Notice} (h : admits notice) (a : α) :
    Within admits fails (Run.noting notice a) := by
  constructor
  · intro n hn
    rw [List.mem_singleton.mp hn]
    exact h
  · intro f hf
    cases hf

theorem bind {run : Run α} {next : α → Run β} (h : Within admits fails run)
    (hnext : ∀ a, Within admits fails (next a)) : Within admits fails (run >>= next) := by
  rcases run with ⟨notices, failure | a⟩
  · rw [bind_error]
    exact ⟨h.notice, by simpa using h.failure⟩
  · constructor
    · intro n hn
      rcases List.mem_append.mp hn with hleft | hright
      · exact h.notice n hleft
      · exact (hnext a).notice n hright
    · intro f hf
      exact (hnext a).failure f hf

end Within

end Run

end PropertyList
