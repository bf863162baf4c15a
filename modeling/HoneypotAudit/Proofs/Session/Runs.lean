import HoneypotAudit.Proofs.Steps
import HoneypotAudit.Session.Basic

/-!
# Runs of actions

`Ends a s o s'` says that an action, started in a session, comes to an outcome in another one.  Its
lemmas take a run apart, step by step, so that no proof about an analysis opens a `do` block; they
are those of steps with a state (`Steps.Runs`, `Steps.Leads`), said of sessions.

What a step does whatever it comes to is said by a preorder of sessions: `Moves R m` leads every
session to one above it, and is closed under every way in which steps are put together.  Most steps
never call the tool: `Calls P m` says that all tool calls of a step have a property, and that the
trace and the script keep up with them (`Makes`); `Quiet` steps are those without calls.
-/

namespace HoneypotAudit

open HoneypotAudit.Outcome HoneypotAudit.Steps

/-! ## The script behind some calls -/

namespace Forge

/-- The script for the calls after some calls. -/
def Script.behind (script : Script) (calls : List Call) : Script :=
  calls.foldl (fun script c => (script.next c.command).2) script

lemma Script.behind_append (script : Script) (before after : List Call) :
    script.behind (before ++ after) = (script.behind before).behind after :=
  List.foldl_append

end Forge

namespace Session

variable {ε ε' α β : Type}

/-! ## Calls between two sessions -/

/-- From one session to another these calls of the tool were made, and no others. -/
structure Makes (calls : List Forge.Call) (s s' : Session) : Prop where
  trace : s'.forgeCalls = s.forgeCalls ++ calls
  script : s'.forge = s.forge.behind calls

lemma Makes.none {s s' : Session} (htrace : s'.forgeCalls = s.forgeCalls)
    (hscript : s'.forge = s.forge) : Makes [] s s' :=
  ⟨by rw [htrace, List.append_nil], hscript⟩

lemma Makes.trans {before after : List Forge.Call} {s s₁ s' : Session} (h : Makes before s s₁)
    (h' : Makes after s₁ s') : Makes (before ++ after) s s' where
  trace := by rw [h'.trace, h.trace, List.append_assoc]
  script := by rw [h'.script, h.script, Forge.Script.behind_append]

/-- The calls are determined by the sessions. -/
lemma Makes.unique {calls calls' : List Forge.Call} {s s' : Session} (h : Makes calls s s')
    (h' : Makes calls' s s') : calls = calls' :=
  List.append_cancel_left (h.trace.symm.trans h'.trace)

/-! ## Runs -/

/-- An action that starts in a session comes to an outcome in another session. -/
def Ends (a : Action ε α) (s : Session) (o : Except ε α) (s' : Session) : Prop :=
  a.run.run s = (o, s')

variable {s s' : Session} {o : Except ε β}

lemma ends_pure_iff {a : β} : Ends (pure a) s o s' ↔ o = .ok a ∧ s' = s :=
  runs_pure_iff

lemma ends_throw_iff {e : ε} : Ends (throw e : Action ε β) s o s' ↔ o = .error e ∧ s' = s :=
  runs_throw_iff

/-- A run of two steps ends with the first one if that fails. -/
lemma ends_bind_iff {a : Action ε α} {next : α → Action ε β} :
    Ends (a >>= next) s o s' ↔
      (∃ e, Ends a s (.error e) s' ∧ o = .error e) ∨
        ∃ x s₁, Ends a s (.ok x) s₁ ∧ Ends (next x) s₁ o s' :=
  runs_bind_iff

lemma ends_bind_ok_iff {a : Action ε α} {next : α → Action ε β} {y : β} :
    Ends (a >>= next) s (.ok y) s' ↔ ∃ x s₁, Ends a s (.ok x) s₁ ∧ Ends (next x) s₁ (.ok y) s' := by
  simp [ends_bind_iff]

/-- A step whose result is made into another one. -/
lemma ends_bind_pure_iff {a : Action ε α} {f : α → β} :
    Ends (a >>= fun x => pure (f x)) s o s' ↔ ∃ o', Ends a s o' s' ∧ o = o'.map f := by
  rw [ends_bind_iff]
  constructor
  · rintro (⟨e, hfail, rfl⟩ | ⟨x, s₁, ha, h⟩)
    · exact ⟨_, hfail, rfl⟩
    · obtain ⟨rfl, rfl⟩ := ends_pure_iff.mp h
      exact ⟨_, ha, rfl⟩
  · rintro ⟨o', ha, rfl⟩
    cases o' with
    | error e => exact .inl ⟨e, ha, rfl⟩
    | ok x => exact .inr ⟨x, s', ha, ends_pure_iff.mpr ⟨rfl, rfl⟩⟩

/-- A look at the session. -/
lemma ends_get_bind_iff {next : Session → Action ε β} :
    Ends (get >>= next) s o s' ↔ Ends (next s) s o s' := by
  have hget (o' : Except ε Session) (s₁ : Session) :
      Ends (get : Action ε Session) s o' s₁ ↔ o' = .ok s ∧ s₁ = s := runs_get_iff
  simp [ends_bind_iff, hget]

/-- A step that cannot fail. -/
lemma ends_lift_iff {m : StateM Session β} :
    Ends (liftM m) s o s' ↔ o = .ok (m.run s).1 ∧ s' = (m.run s).2 :=
  runs_lift_iff

/-- A run does not end with a step that cannot fail. -/
lemma ends_lift_bind_iff {m : StateM Session α} {next : α → Action ε β} :
    Ends (liftM m >>= next) s o s' ↔
      ∃ x s₁, Ends (liftM m : Action ε α) s (.ok x) s₁ ∧ Ends (next x) s₁ o s' := by
  simp [ends_bind_iff, ends_lift_iff]

/-- A step whose fault is looked at. -/
lemma ends_lift_run_iff {a : Action ε' β} {o : Except ε' β} :
    Ends (liftM a.run : Action ε (Except ε' β)) s (.ok o) s' ↔ Ends a s o s' := by
  rw [ends_lift_iff, Ends]
  rcases a.run.run s with ⟨o', s₁⟩
  grind

lemma ends_modify_iff {f : Session → Session} {o : Except ε PUnit} :
    Ends (modify f) s o s' ↔ o = .ok ⟨⟩ ∧ s' = f s :=
  runs_modify_iff

/-- The fault of a step in other words. -/
lemma ends_adapt_iff {a : Action ε' β} {f : ε' → ε} :
    Ends (ExceptT.adapt f a) s o s' ↔ ∃ o', Ends a s o' s' ∧ o = o'.mapError f := by
  have hadapt : (ExceptT.adapt f a).run.run s =
      ((a.run.run s).1.mapError f, (a.run.run s).2) := rfl
  simp only [Ends, hadapt]
  rcases a.run.run s with ⟨o', s₁⟩
  grind

/-- A change of the files is made, and its fault is given back. -/
lemma ends_changeFiles_iff {change : Files.Tree → Files.Location → Files.Tree.Outcome}
    {o : Except Files.Fault Unit} :
    Ends (changeFiles change) s o s' ↔
      o = (change s.files s.workingDirectory).fault.elim (.ok ()) .error ∧
      s' = { s with files := (change s.files s.workingDirectory).tree } := by
  have hrun : (changeFiles change).run.run s =
      ((change s.files s.workingDirectory).fault.elim (.ok ()) .error,
        { s with files := (change s.files s.workingDirectory).tree }) := by
    have hconst : (changeFiles change).run.run s
        = (changeFiles fun _ _ => change s.files s.workingDirectory).run.run s := rfl
    rw [hconst]
    generalize change s.files s.workingDirectory = outcome
    obtain ⟨tree, fault⟩ := outcome
    cases fault <;> rfl
  rw [Ends, hrun, Prod.mk.injEq, eq_comm (a := o), eq_comm (a := s')]

/-! ## What steps do whatever they come to -/

/-- Every run of a step leads to a session above the one in which it starts. -/
def Moves (R : Session → Session → Prop) (m : StateM Session α) : Prop :=
  ∀ s, R s (m.run s).2

section Moves

variable {R : Session → Session → Prop}

lemma Moves.mono {R' : Session → Session → Prop} {m : StateM Session α} (h : Moves R m)
    (hRR' : ∀ s s', R s s' → R' s s') : Moves R' m :=
  fun s => hRR' s _ (h s)

/-- What the run of an action does. -/
lemma Moves.of_ends {a : Action ε β} (h : Moves R a.run) (hends : Ends a s o s') : R s s' :=
  Leads.of_runs h hends

lemma moves_changeFiles {change : Files.Tree → Files.Location → Files.Tree.Outcome}
    (h : ∀ s, R s { s with files := (change s.files s.workingDirectory).tree }) :
    Moves R (changeFiles change).run := by
  intro s
  obtain ⟨-, hlast⟩ := ends_changeFiles_iff.mp (rfl : Ends (changeFiles change) s _ _)
  exact hlast ▸ h s

/-- Directories are made in the room of the session. -/
lemma moves_makeDirectories {p : Files.Path}
    (h : ∀ s, R s { s with
      files := (s.files.makeDirectories s.rooms.made s.workingDirectory p).tree }) :
    Moves R (makeDirectories p).run := by
  intro s
  obtain ⟨-, hlast⟩ := ends_changeFiles_iff.mp
    (rfl : Ends (changeFiles fun t cwd => t.makeDirectories s.rooms.made cwd p) s _ _)
  exact hlast ▸ h s

variable [IsPreorder Session R]

lemma Moves.bind {m : StateM Session α} {next : α → StateM Session β} (hm : Moves R m)
    (hnext : ∀ x, Moves R (next x)) : Moves R (m >>= next) :=
  Leads.bind hm hnext

lemma moves_pure (a : α) : Moves R (pure a : StateM Session α) :=
  leads_pure a

lemma moves_run_pure (a : α) : Moves R (pure a : Action ε α).run :=
  leads_run_pure a

lemma moves_run_throw (e : ε) : Moves R (throw e : Action ε α).run :=
  leads_run_throw e

lemma moves_get : Moves R (get : Action ε Session).run :=
  leads_run_get

lemma Moves.run_bind {a : Action ε α} {next : α → Action ε β} (ha : Moves R a.run)
    (hnext : ∀ x, Moves R (next x).run) : Moves R (a >>= next).run :=
  Leads.run_bind ha hnext

lemma Moves.run_lift {m : StateM Session α} (h : Moves R m) : Moves R (liftM m : Action ε α).run :=
  Leads.run_lift h

lemma Moves.run_adapt {a : Action ε' α} {f : ε' → ε} (h : Moves R a.run) :
    Moves R (ExceptT.adapt f a).run :=
  Leads.run_adapt h

/-- A loop over a list. -/
lemma Moves.run_forIn {as : List α} {body : α → β → Action ε (ForInStep β)}
    (hbody : ∀ a ∈ as, ∀ b, Moves R (body a b).run) (b : β) : Moves R (forIn as b body).run :=
  Leads.run_forIn hbody b

end Moves

/-! ## Steps whose calls have a property -/

variable {P : Forge.Call → Prop}

/-- Between two sessions calls with a property were made, and no others, and there is the same
room. -/
structure MakesOnly (P : Forge.Call → Prop) (s s' : Session) : Prop where
  makes : ∃ calls, Makes calls s s' ∧ ∀ c ∈ calls, P c
  rooms : s'.rooms = s.rooms

lemma MakesOnly.none {s s' : Session} (htrace : s'.forgeCalls = s.forgeCalls)
    (hscript : s'.forge = s.forge) (hrooms : s'.rooms = s.rooms) : MakesOnly P s s' :=
  ⟨⟨[], .none htrace hscript, by simp⟩, hrooms⟩

instance : IsPreorder Session (MakesOnly P) where
  refl s := .none rfl rfl rfl
  trans s s₁ s' := by
    rintro ⟨⟨before, hbefore, hP⟩, hrooms⟩ ⟨⟨after, hafter, hP'⟩, hrooms'⟩
    refine ⟨⟨before ++ after, hbefore.trans hafter, fun c hc => ?_⟩, hrooms'.trans hrooms⟩
    rcases List.mem_append.mp hc with hc | hc
    · exact hP c hc
    · exact hP' c hc

/-- The calls that were made are those that have the property. -/
lemma Makes.of_only {calls : List Forge.Call} {s s' : Session} (h : Makes calls s s')
    (honly : MakesOnly P s s') : ∀ c ∈ calls, P c := by
  obtain ⟨calls', hmakes, hP⟩ := honly.makes
  rwa [h.unique hmakes]

/-- All calls of the tool in a step have a property. -/
def Calls (P : Forge.Call → Prop) (m : StateM Session α) : Prop :=
  Moves (MakesOnly P) m

/-- A step without calls of the tool. -/
def Quiet (m : StateM Session α) : Prop :=
  Calls (fun _ => False) m

lemma Calls.mono {Q : Forge.Call → Prop} {m : StateM Session α} (h : Calls P m)
    (hPQ : ∀ c, P c → Q c) : Calls Q m := by
  intro s
  obtain ⟨⟨calls, hmakes, hP⟩, hrooms⟩ := h s
  exact ⟨⟨calls, hmakes, fun c hc => hPQ c (hP c hc)⟩, hrooms⟩

lemma Quiet.calls {m : StateM Session α} (h : Quiet m) : Calls P m :=
  Calls.mono h fun _ => False.elim

lemma quiet_of_eq {m : StateM Session α} (htrace : ∀ s, (m.run s).2.forgeCalls = s.forgeCalls)
    (hscript : ∀ s, (m.run s).2.forge = s.forge) (hrooms : ∀ s, (m.run s).2.rooms = s.rooms) :
    Quiet m :=
  fun s => .none (htrace s) (hscript s) (hrooms s)

lemma Calls.bind {m : StateM Session α} {next : α → StateM Session β} (hm : Calls P m)
    (hnext : ∀ x, Calls P (next x)) : Calls P (m >>= next) :=
  Moves.bind hm hnext

lemma calls_pure (a : α) : Calls P (pure a : StateM Session α) :=
  moves_pure a

lemma calls_run_pure (a : α) : Calls P (pure a : Action ε α).run :=
  moves_run_pure a

lemma calls_run_throw (e : ε) : Calls P (throw e : Action ε α).run :=
  moves_run_throw e

lemma Calls.run_bind {a : Action ε α} {next : α → Action ε β} (ha : Calls P a.run)
    (hnext : ∀ x, Calls P (next x).run) : Calls P (a >>= next).run :=
  Moves.run_bind ha hnext

lemma Calls.run_lift {m : StateM Session α} (h : Calls P m) :
    Calls P (liftM m : Action ε α).run :=
  Moves.run_lift h

lemma Calls.run_adapt {a : Action ε' α} {f : ε' → ε} (h : Calls P a.run) :
    Calls P (ExceptT.adapt f a).run :=
  Moves.run_adapt h

/-- A loop over a list. -/
lemma Calls.run_forIn {as : List α} {body : α → β → Action ε (ForInStep β)}
    (hbody : ∀ a b, Calls P (body a b).run) (b : β) : Calls P (forIn as b body).run :=
  Moves.run_forIn (fun a _ => hbody a) b

lemma Calls.makesOnly {a : Action ε β} (h : Calls P a.run) (hends : Ends a s o s') :
    MakesOnly P s s' :=
  Moves.of_ends h hends

/-- The calls in the run of an action. -/
lemma Calls.exists_makes {a : Action ε β} (h : Calls P a.run) (hends : Ends a s o s') :
    ∃ calls, Makes calls s s' ∧ ∀ c ∈ calls, P c :=
  (h.makesOnly hends).makes

/-- There is the same room behind the run of an action. -/
lemma Calls.rooms_eq {a : Action ε β} (h : Calls P a.run) (hends : Ends a s o s') :
    s'.rooms = s.rooms :=
  (h.makesOnly hends).rooms

lemma MakesOnly.makes_nil {s s' : Session} (h : MakesOnly (fun _ => False) s s') :
    Makes [] s s' := by
  obtain ⟨calls, hmakes, hnone⟩ := h.makes
  obtain rfl := List.eq_nil_iff_forall_not_mem.mpr hnone
  exact hmakes

lemma Quiet.makes {m : StateM Session α} (h : Quiet m) (s : Session) :
    Makes [] s (m.run s).2 :=
  (h s).makes_nil

lemma Quiet.makes_of_ends {a : Action ε β} (h : Quiet a.run) (hends : Ends a s o s') :
    Makes [] s s' := by
  have hlast : (a.run.run s).2 = s' := congrArg Prod.snd hends
  exact hlast ▸ h.makes s

lemma Quiet.makes_of_lift {m : StateM Session β} (h : Quiet m) (hends : Ends (liftM m) s o s') :
    Makes [] s s' :=
  Quiet.makes_of_ends (Calls.run_lift h) hends

/-! ## Idle steps -/

/-- From one session to another the tool was not called, no file or project was touched, and there
is the same room; only the log and what it is about, the clocks and the calls of the compiler may
differ. -/
structure Idles (s s' : Session) : Prop where
  trace : s'.forgeCalls = s.forgeCalls
  script : s'.forge = s.forge
  files : s'.files = s.files
  workingDirectory : s'.workingDirectory = s.workingDirectory
  temporaries : s'.temporaries = s.temporaries
  project : s'.project = s.project
  rooms : s'.rooms = s.rooms

instance : IsPreorder Session Idles where
  refl _ := ⟨rfl, rfl, rfl, rfl, rfl, rfl, rfl⟩
  trans _ _ _ h h' := {
    trace := h'.trace.trans h.trace
    script := h'.script.trans h.script
    files := h'.files.trans h.files
    workingDirectory := h'.workingDirectory.trans h.workingDirectory
    temporaries := h'.temporaries.trans h.temporaries
    project := h'.project.trans h.project
    rooms := h'.rooms.trans h.rooms }

lemma Idles.makesOnly {s s' : Session} (h : Idles s s') : MakesOnly P s s' :=
  .none h.trace h.script h.rooms

/-- An idle step calls nothing. -/
lemma Quiet.of_idles {m : StateM Session α} (h : Moves Idles m) : Quiet m :=
  Moves.mono h fun _ _ => Idles.makesOnly

lemma idles_log (r : Log.Record) : Moves Idles (log r) :=
  fun _ => ⟨rfl, rfl, rfl, rfl, rfl, rfl, rfl⟩

lemma idles_noteCompiler (c : Solc.Call) : Moves Idles (noteCompiler c) :=
  fun _ => ⟨rfl, rfl, rfl, rfl, rfl, rfl, rfl⟩

lemma idles_readAnalysisClock : Moves Idles readAnalysisClock :=
  fun _ => ⟨rfl, rfl, rfl, rfl, rfl, rfl, rfl⟩

lemma idles_readRunClock : Moves Idles readRunClock :=
  fun _ => ⟨rfl, rfl, rfl, rfl, rfl, rfl, rfl⟩

/-! ## The steps of a session -/

lemma quiet_get : Quiet (get : Action ε Session).run :=
  moves_get

lemma quiet_log (r : Log.Record) : Quiet (log r) :=
  .of_idles (idles_log r)

/-- A record in front of a step. -/
lemma Calls.log_bind {r : Log.Record} {next : Unit → Action ε β}
    (hnext : ∀ x, Calls P (next x).run) : Calls P (liftM (log r) >>= next).run :=
  Calls.run_bind (Calls.run_lift (quiet_log r).calls) hnext

lemma quiet_readAnalysisClock : Quiet readAnalysisClock :=
  .of_idles idles_readAnalysisClock

lemma quiet_readRunClock : Quiet readRunClock :=
  .of_idles idles_readRunClock

lemma quiet_makeTemporary : Quiet makeTemporary :=
  quiet_of_eq (fun _ => rfl) (fun _ => rfl) (fun _ => rfl)

lemma quiet_changeFiles (change : Files.Tree → Files.Location → Files.Tree.Outcome) :
    Quiet (changeFiles change).run :=
  moves_changeFiles fun _ => .none rfl rfl rfl

lemma quiet_makeDirectories (p : Files.Path) : Quiet (makeDirectories p).run :=
  moves_makeDirectories fun _ => .none rfl rfl rfl

/-- A call of the tool comes to what the script says. -/
lemma makes_call (c : Forge.Call) (usual : String) (s : Session) :
    Makes [c] s ((call c usual).run s).2 :=
  ⟨rfl, rfl⟩

lemma calls_call {c : Forge.Call} (h : P c) (usual : String) : Calls P (call c usual) :=
  fun s => ⟨⟨[c], makes_call c usual s, by simpa using h⟩, rfl⟩

end Session

end HoneypotAudit
