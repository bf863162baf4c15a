import HoneypotAudit.Proofs.Outcome
import Mathlib.Order.Defs.Unbundled

/-!
# Steps with a state

A step starts in a state, and comes to a value or to a fault in another state; a fault takes nothing
back.  Analyses are such steps, in a session, and so are runs of the program, in a console.

* `Runs a s o s'` says what a step comes to.  Its lemmas take a run apart into the runs of its
  parts.
* `Leads R m` says that every run leads to a state above the one in which it starts; with `Keeps P`
  as the preorder it says that no run loses a property.
* `Gives Q a` says that every value of a step has a property.
* `Ensures P Q a` says so of the runs that start in a state with a property, and that it is kept.
-/

namespace HoneypotAudit.Steps

variable {σ ε ε' α β : Type}

/-! ## Runs -/

/-- A step that starts in a state comes to an outcome in another state. -/
def Runs (a : ExceptT ε (StateM σ) α) (s : σ) (o : Except ε α) (s' : σ) : Prop :=
  a.run.run s = (o, s')

variable {s s' : σ} {o : Except ε β}

lemma runs_pure_iff {b : β} :
    Runs (pure b : ExceptT ε (StateM σ) β) s o s' ↔ o = .ok b ∧ s' = s := by
  simp only [Runs, eq_comm (a := o), eq_comm (a := s')]
  exact Prod.mk.injEq ..|>.to_iff

lemma runs_throw_iff {e : ε} :
    Runs (throw e : ExceptT ε (StateM σ) β) s o s' ↔ o = .error e ∧ s' = s := by
  simp only [Runs, eq_comm (a := o), eq_comm (a := s')]
  exact Prod.mk.injEq ..|>.to_iff

/-- A run of two steps ends with the first one if that fails. -/
lemma runs_bind_iff {a : ExceptT ε (StateM σ) α} {next : α → ExceptT ε (StateM σ) β} :
    Runs (a >>= next) s o s' ↔
      (∃ e, Runs a s (.error e) s' ∧ o = .error e) ∨
        ∃ x s₁, Runs a s (.ok x) s₁ ∧ Runs (next x) s₁ o s' := by
  have hbind : (a >>= next).run.run s =
      match a.run.run s with
      | (.ok x, s₁) => (next x).run.run s₁
      | (.error e, s₁) => (.error e, s₁) := by
    rw [ExceptT.run_bind, StateT.run_bind]
    rcases a.run.run s with ⟨e | x, s₁⟩ <;> rfl
  simp only [Runs, hbind]
  rcases a.run.run s with ⟨e | x, s₁⟩
  · grind
  · grind

/-- A look at the state. -/
lemma runs_get_iff {o : Except ε σ} :
    Runs (get : ExceptT ε (StateM σ) σ) s o s' ↔ o = .ok s ∧ s' = s := by
  simp only [Runs, eq_comm (a := o), eq_comm (a := s')]
  exact Prod.mk.injEq ..|>.to_iff

/-- A step that cannot fail. -/
lemma runs_lift_iff {m : StateM σ β} :
    Runs (liftM m : ExceptT ε (StateM σ) β) s o s' ↔ o = .ok (m.run s).1 ∧ s' = (m.run s).2 := by
  simp only [Runs, eq_comm (a := o), eq_comm (a := s')]
  exact Prod.mk.injEq ..|>.to_iff

lemma runs_modify_iff {f : σ → σ} {o : Except ε PUnit} :
    Runs (modify f : ExceptT ε (StateM σ) PUnit) s o s' ↔ o = .ok ⟨⟩ ∧ s' = f s := by
  simp only [Runs, eq_comm (a := o), eq_comm (a := s')]
  exact Prod.mk.injEq ..|>.to_iff

/-! ## What steps do whatever they come to -/

/-- Every run of a step leads to a state above the one in which it starts. -/
def Leads (R : σ → σ → Prop) (m : StateM σ α) : Prop :=
  ∀ s, R s (m.run s).2

section Leads

variable {R : σ → σ → Prop}

/-- Where a run leads. -/
lemma Leads.of_runs {a : ExceptT ε (StateM σ) β} (h : Leads R a.run) (hruns : Runs a s o s') :
    R s s' := by
  have hlast : (a.run.run s).2 = s' := congrArg Prod.snd hruns
  exact hlast ▸ h s

variable [IsPreorder σ R]

lemma Leads.bind {m : StateM σ α} {next : α → StateM σ β} (hm : Leads R m)
    (hnext : ∀ x, Leads R (next x)) : Leads R (m >>= next) :=
  fun s => trans_of R (hm s) (hnext (m.run s).1 (m.run s).2)

lemma leads_pure (a : α) : Leads R (pure a : StateM σ α) :=
  fun s => refl_of R s

lemma leads_run_pure (a : α) : Leads R (pure a : ExceptT ε (StateM σ) α).run :=
  leads_pure (Except.ok a)

lemma leads_run_throw (e : ε) : Leads R (throw e : ExceptT ε (StateM σ) α).run :=
  leads_pure (Except.error e)

lemma leads_run_get : Leads R (get : ExceptT ε (StateM σ) σ).run :=
  fun s => refl_of R s

lemma Leads.run_bind {a : ExceptT ε (StateM σ) α} {next : α → ExceptT ε (StateM σ) β}
    (ha : Leads R a.run) (hnext : ∀ x, Leads R (next x).run) : Leads R (a >>= next).run := by
  rw [ExceptT.run_bind]
  refine Leads.bind ha fun o => ?_
  cases o with
  | ok x => exact hnext x
  | error e => exact leads_pure (Except.error e)

lemma Leads.run_lift {m : StateM σ α} (h : Leads R m) :
    Leads R (liftM m : ExceptT ε (StateM σ) α).run :=
  Leads.bind h fun x => leads_pure (Except.ok x)

lemma Leads.run_adapt {a : ExceptT ε' (StateM σ) α} {f : ε' → ε} (h : Leads R a.run) :
    Leads R (ExceptT.adapt f a).run :=
  Leads.bind h fun o => leads_pure (o.mapError f)

/-- A loop over a list. -/
lemma Leads.run_forIn {as : List α} {body : α → β → ExceptT ε (StateM σ) (ForInStep β)}
    (hbody : ∀ a ∈ as, ∀ b, Leads R (body a b).run) (b : β) : Leads R (forIn as b body).run := by
  induction as generalizing b with
  | nil => exact leads_run_pure b
  | cons a as ih =>
    rw [List.forIn_cons]
    refine Leads.run_bind (hbody a List.mem_cons_self b) fun step => ?_
    cases step with
    | done b => exact leads_run_pure b
    | yield b => exact ih (fun a' ha' => hbody a' (List.mem_cons_of_mem a ha')) b

end Leads

/-- The preorder of what has a property and keeps it. -/
def Keeps (P : σ → Prop) (s s' : σ) : Prop :=
  P s → P s'

instance {P : σ → Prop} : IsPreorder σ (Keeps P) where
  refl _ h := h
  trans _ _ _ h h' hs := h' (h hs)

/-! ## What steps give -/

/-- Every value that a step comes to has a property. -/
def Gives (Q : α → Prop) (a : ExceptT ε (StateM σ) α) : Prop :=
  ∀ ⦃s s' x⦄, Runs a s (.ok x) s' → Q x

section Gives

variable {P : α → Prop} {Q : β → Prop}

lemma gives_pure {b : β} (h : Q b) : Gives Q (pure b : ExceptT ε (StateM σ) β) := by
  intro s s' x hruns
  obtain ⟨hx, -⟩ := runs_pure_iff.mp hruns
  exact Except.ok.inj hx ▸ h

lemma gives_throw (e : ε) : Gives Q (throw e : ExceptT ε (StateM σ) β) := by
  intro s s' x hruns
  cases (runs_throw_iff.mp hruns).1

/-- The value of two steps is that of the second one, for a value of the first. -/
lemma Gives.bind {a : ExceptT ε (StateM σ) α} {next : α → ExceptT ε (StateM σ) β} (ha : Gives P a)
    (hnext : ∀ x, P x → Gives Q (next x)) : Gives Q (a >>= next) := by
  intro s s' y hruns
  rcases runs_bind_iff.mp hruns with ⟨e, -, he⟩ | ⟨x, s₁, hx, hy⟩
  · cases he
  · exact hnext x (ha hx) hy

/-- Whatever the first step gives. -/
lemma gives_bind {a : ExceptT ε (StateM σ) α} {next : α → ExceptT ε (StateM σ) β}
    (hnext : ∀ x, Gives Q (next x)) : Gives Q (a >>= next) :=
  Gives.bind (P := fun _ => True) (fun _ _ _ _ => trivial) fun x _ => hnext x

end Gives

/-- Where a step comes to a value, the value has a property, and the state keeps one. -/
def Ensures (P : σ → Prop) (Q : α → Prop) (a : ExceptT ε (StateM σ) α) : Prop :=
  ∀ ⦃s s' x⦄, Runs a s (.ok x) s' → P s → P s' ∧ Q x

section Ensures

variable {P : σ → Prop} {Q : α → Prop} {R : β → Prop}

lemma ensures_pure {b : β} (h : R b) : Ensures P R (pure b : ExceptT ε (StateM σ) β) := by
  intro s s' x hruns hs
  obtain ⟨hx, rfl⟩ := runs_pure_iff.mp hruns
  exact ⟨hs, Except.ok.inj hx ▸ h⟩

lemma ensures_throw (e : ε) : Ensures P R (throw e : ExceptT ε (StateM σ) β) := by
  intro s s' x hruns
  cases (runs_throw_iff.mp hruns).1

lemma Ensures.bind {a : ExceptT ε (StateM σ) α} {next : α → ExceptT ε (StateM σ) β}
    (ha : Ensures P Q a) (hnext : ∀ x, Q x → Ensures P R (next x)) : Ensures P R (a >>= next) := by
  intro s s' y hruns hs
  rcases runs_bind_iff.mp hruns with ⟨e, -, he⟩ | ⟨x, s₁, hx, hy⟩
  · cases he
  · obtain ⟨hs₁, hQ⟩ := ha hx hs
    exact hnext x hQ hy hs₁

end Ensures

end HoneypotAudit.Steps
