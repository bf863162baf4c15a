import HoneypotAudit.Forge.Operation
import HoneypotAudit.Proofs.Files.Trees
import HoneypotAudit.Proofs.Forge.Execution

/-!
# Projects over many operations

Whatever operations come one after the other, and whether they fail or not, each of them does one of
three things to the project.  Making a project and the first run choose a directory (`opened`).  All
but cleaning up then work in the directory (`Works`): the project stays, the files grow, and only
two of them are written, the settings and the suites.  Cleaning up removes the directory if it is a
temporary one, and forgets the project.

The main statement is `works_after`, which is what one operation does to the project and the files.
-/

namespace HoneypotAudit.Forge

open HoneypotAudit.Files HoneypotAudit.Session

/-! ## Sequences of operations -/

lemma performAll_cons (c : Config) (op : Operation) (ops : List Operation) (s : Session) :
    performAll c (op :: ops) s = performAll c ops (op.after c s) :=
  rfl

lemma performAll_append (c : Config) (before after : List Operation) (s : Session) :
    performAll c (before ++ after) s = performAll c after (performAll c before s) :=
  List.foldl_append

lemma performAll_concat (c : Config) (ops : List Operation) (op : Operation) (s : Session) :
    performAll c (ops ++ [op]) s = op.after c (performAll c ops s) :=
  performAll_append c ops [op] s

/-- An operation comes to its outcome in the session behind it. -/
lemma ends_perform (c : Config) (op : Operation) (s : Session) :
    Ends (op.perform c) s ((op.perform c).run.run s).1 (op.after c s) :=
  rfl

/-! ## Making a project -/

/-- The session in which the directory of a new project has been chosen. -/
def opened (c : Config) (s : Session) : Session :=
  ((chooseDirectory c).run s).2

/-- A fixed directory is the project, and nothing is made. -/
lemma opened_of_fixed {c : Config} {text : String} (h : c.fixedDirectory? = some text)
    (s : Session) : opened c s = { s with project := ⟨some (.ofText text), false⟩ } := by
  rw [opened, chooseDirectory, h]
  rfl

/-- Without one, a temporary directory is made. -/
lemma opened_of_temporary {c : Config} (h : c.fixedDirectory? = none) (s : Session) :
    opened c s =
      { s with
        temporaries := s.temporaries + 1
        files := s.files.put (temporaryPath s.temporaries).parts .directory
        project := ⟨some (temporaryPath s.temporaries), true⟩ } := by
  rw [opened, chooseDirectory, h]
  rfl

/-- The directory that was chosen is that of the project. -/
lemma directory_opened (c : Config) (s : Session) :
    (opened c s).project.directory = some ((chooseDirectory c).run s).1 := by
  rw [opened, chooseDirectory]
  cases c.fixedDirectory? <;> rfl

namespace Operation

/-- Whether an operation makes a project in a session. -/
def opens (s : Session) : Operation → Bool
  | .start => true
  | .run _ => s.project.directory.isNone
  | _ => false

/-- The session in which an operation works. -/
def within (c : Config) (op : Operation) (s : Session) : Session :=
  if op.opens s then opened c s else s

end Operation

/-! ## Working in a project -/

/-- The path of the settings of a project. -/
def settingsPath : Path :=
  .relative ["foundry.toml"]

/-- The places of the settings and of the suites of a project. -/
def writtenPlaces (c : Config) (directory : Option Path) (workingDirectory : Location) :
    Set Location :=
  {place | ∃ d ∈ directory, place = (d.join settingsPath).resolve workingDirectory ∨
    place = (d.join (.ofText c.testFile)).resolve workingDirectory}

/-- The names of what may be new in a project, and on the way to it. -/
def newNames (c : Config) (directory : Option Path) : Set String :=
  {name | ∃ d ∈ directory, name ∈ d.parts ∨ name ∈ ["src", "test", "lib", "foundry.toml"] ∨
    name ∈ (Path.ofText c.testFile).parts}

/-- What is done in a project: it stays the project, the files grow, and only its settings and its
suites are written. -/
structure Works (c : Config) (directory : Option Path) (s s' : Session) : Prop where
  project : s'.project = s.project
  temporaries : s'.temporaries = s.temporaries
  workingDirectory : s'.workingDirectory = s.workingDirectory
  files : Tree.Grows (writtenPlaces c directory s.workingDirectory) (newNames c directory)
    s.files s'.files

variable {c : Config} {directory : Option Path} {s s' : Session}

lemma works_of_eq (hproject : s'.project = s.project)
    (htemporaries : s'.temporaries = s.temporaries)
    (hworking : s'.workingDirectory = s.workingDirectory) (hfiles : s'.files = s.files) :
    Works c directory s s' :=
  ⟨hproject, htemporaries, hworking, by rw [hfiles]; exact refl_of _ s.files⟩

instance : IsPreorder Session (Works c directory) where
  refl _ := works_of_eq rfl rfl rfl rfl
  trans _ _ _ h h' := {
    project := h'.project.trans h.project
    temporaries := h'.temporaries.trans h.temporaries
    workingDirectory := h'.workingDirectory.trans h.workingDirectory
    files := trans_of _ h.files (h.workingDirectory ▸ h'.files) }

/-! ## Steps in a project -/

lemma works_log (r : Log.Record) : Moves (Works c directory) (Session.log r) :=
  fun _ => works_of_eq rfl rfl rfl rfl

lemma works_readRunClock : Moves (Works c directory) readRunClock :=
  fun _ => works_of_eq rfl rfl rfl rfl

lemma works_call (call : Call) (usual : String) :
    Moves (Works c directory) (Session.call call usual) :=
  fun _ => works_of_eq rfl rfl rfl rfl

lemma works_makeDirectories {p : Path} (hnames : ∀ name ∈ p.parts, name ∈ newNames c directory) :
    Moves (Works c directory) (Step.ofFiles (makeDirectories p)).run := by
  refine Moves.run_adapt (moves_makeDirectories fun s => ⟨rfl, rfl, rfl, ?_⟩)
  exact (Tree.grows_makeDirectories s.rooms.made s.files s.workingDirectory p).mono
    (Set.empty_subset _) hnames

lemma works_writeText {p : Path} {content : List Char}
    (hnames : ∀ name ∈ p.parts, name ∈ newNames c directory)
    (hplace : ∀ l, p.resolve l ∈ writtenPlaces c directory l) :
    Moves (Works c directory) (Step.ofFiles (writeText p content)).run := by
  refine Moves.run_adapt (moves_changeFiles fun s => ⟨rfl, rfl, rfl, ?_⟩)
  exact (Tree.grows_write s.files s.workingDirectory p _).mono
    (Set.singleton_subset_iff.mpr (hplace s.workingDirectory)) hnames

lemma works_projectDirectory : Moves (Works c directory) projectDirectory.run := by
  refine Moves.run_bind moves_get fun s => ?_
  split
  · exact moves_run_pure _
  · exact moves_run_throw _

lemma works_install : Moves (Works c directory) (install c).run := by
  refine Moves.run_bind works_projectDirectory fun d => ?_
  refine Moves.run_bind (Moves.run_lift (works_call _ _)) fun outcome => ?_
  split
  · exact moves_run_throw _
  · exact moves_run_throw _
  · split
    · exact moves_run_pure _
    · exact moves_run_throw _

/-- The names of a path in a project are those of the directory and of what leads on from it. -/
lemma mem_newNames_of_join {d p : Path}
    (h : ∀ name ∈ p.parts, name ∈ newNames c (some d)) :
    ∀ name ∈ (d.join p).parts, name ∈ newNames c (some d) := by
  intro name hname
  rw [Path.join] at hname
  split at hname
  · exact h name hname
  · rcases List.mem_append.mp hname with hname | hname
    · exact ⟨d, rfl, .inl hname⟩
    · exact h name hname

/-- The directory of a new project is chosen, and all else is work in it. -/
lemma works_startProject {o : Except Stop Path} (h : Ends (startProject c) s o s') :
    Works c (opened c s).project.directory (opened c s) s' := by
  rw [directory_opened]
  obtain ⟨d, s₁, hchosen, h⟩ := ends_lift_bind_iff.mp h
  obtain ⟨hd, rfl⟩ := ends_lift_iff.mp hchosen
  obtain rfl := Except.ok.inj hd
  refine Moves.of_ends ?_ h
  have hbelow (name : String) (hname : name ∈ ["src", "test", "lib", "foundry.toml"]) :
      ∀ part ∈ (((chooseDirectory c).run s).1.join (.relative [name])).parts,
        part ∈ newNames c (some ((chooseDirectory c).run s).1) := by
    refine mem_newNames_of_join fun part hpart => ?_
    obtain rfl := List.mem_singleton.mp hpart
    exact ⟨_, rfl, .inr (.inl hname)⟩
  refine Moves.run_bind (Moves.run_forIn (fun name hname _ => ?_) _) fun _ => ?_
  · have hmember : name ∈ ["src", "test", "lib", "foundry.toml"] := by
      simp only [List.mem_cons, List.not_mem_nil, or_false] at hname ⊢
      tauto
    exact Moves.run_bind (works_makeDirectories (hbelow name hmember)) fun _ => moves_run_pure _
  refine Moves.run_bind (works_writeText (hbelow "foundry.toml" (by decide)) ?_) fun _ => ?_
  · exact fun l => ⟨_, rfl, .inl rfl⟩
  refine Moves.run_bind moves_get fun s₁ => ?_
  have hlog (message : String) :
      Moves (Works c (some ((chooseDirectory c).run s).1)) (do
        let _ ← liftM (Session.log { logger := logger, message := message })
        pure ((chooseDirectory c).run s).1 : Step Path).run :=
    Moves.run_bind (Moves.run_lift (works_log _)) fun _ => moves_run_pure _
  dsimp only
  split
  · exact Moves.run_bind works_install fun _ => hlog _
  · exact hlog _

/-- Writing the suites is work in the project. -/
lemma works_writeSuites {code : String} {o : Except Stop Path}
    (h : Ends (writeSuites c code) s o s') :
    Works c s.project.directory s s' := by
  rcases ends_bind_iff.mp h with ⟨e, hfail, -⟩ | ⟨d, s₁, hdirectory, hrest⟩
  · exact works_projectDirectory.of_ends hfail
  obtain ⟨hproject, rfl⟩ := ends_projectDirectory_ok_iff.mp hdirectory
  rw [hproject]
  have hnames : ∀ name ∈ (d.join (.ofText c.testFile)).parts, name ∈ newNames c (some d) :=
    mem_newNames_of_join fun name hname => ⟨d, rfl, .inr (.inr hname)⟩
  have hparent : ∀ name ∈ (d.join (.ofText c.testFile)).parent.parts,
      name ∈ newNames c (some d) :=
    fun name hname => hnames name (List.dropLast_subset _ hname)
  refine Moves.of_ends (Moves.run_bind (works_makeDirectories hparent) fun _ => ?_) hrest
  refine Moves.run_bind (works_writeText hnames fun l => ?_) fun _ => moves_run_pure _
  exact ⟨d, rfl, .inr rfl⟩

lemma works_test (r : Request) : Moves (Works c directory) (test c r).run := by
  refine Moves.run_bind works_projectDirectory fun d => ?_
  refine Moves.run_bind (Moves.run_lift works_readRunClock) fun start => ?_
  refine Moves.run_bind (Moves.run_lift (works_call _ _)) fun outcome => ?_
  split
  · exact moves_run_throw _
  · exact moves_run_throw _
  · exact Moves.run_bind (Moves.run_lift works_readRunClock) fun _ => moves_run_pure _

/-- A project that is made or found, and then work in it. -/
lemma works_ensureProject {r : Request} {o : Except Stop Unit} (h : Ends (ensureProject c) s o s') :
    Works c ((Operation.run r).within c s).project.directory ((Operation.run r).within c s) s' := by
  rw [ends_ensureProject_iff] at h
  by_cases hnone : s.project.directory.isNone = true
  · rw [if_pos hnone] at h
    obtain ⟨o', hstart, -⟩ := h
    rw [Operation.within, Operation.opens, if_pos hnone]
    exact works_startProject hstart
  · rw [if_neg hnone] at h
    obtain ⟨-, rfl⟩ := h
    rw [Operation.within, Operation.opens, if_neg hnone]
    exact refl_of _ s'

lemma works_run {r : Request} {o : Except Stop SuiteRun} (h : Ends (Forge.run c r) s o s') :
    Works c ((Operation.run r).within c s).project.directory ((Operation.run r).within c s) s' := by
  cases stages_of_run h with
  | unopened opens => exact works_ensureProject opens
  | unwritten opens writes =>
    have hopens := works_ensureProject (r := r) opens
    exact trans_of _ hopens (hopens.project ▸ works_writeSuites writes)
  | @tested s₁ s₂ s₃ path o opens writes tests reads =>
    have hopens := works_ensureProject (r := r) opens
    obtain ⟨records, rfl⟩ := reads
    have hreads : Works c ((Operation.run r).within c s).project.directory s₃
        { s₃ with records } := works_of_eq rfl rfl rfl rfl
    refine trans_of _ hopens (trans_of _ (hopens.project ▸ works_writeSuites writes)
      (trans_of _ ((works_test r).of_ends tests) hreads))

/-! ## Operations -/

/-- **What an operation does to the project and the files.**  All but cleaning up work in the
project, in a new one if they make one. -/
theorem works_after {op : Operation} (h : op ≠ .cleanUp) (s : Session) :
    Works c (op.within c s).project.directory (op.within c s) (op.after c s) := by
  have hends := ends_perform c op s
  cases op with
  | start =>
    obtain ⟨o', hstart, -⟩ := ends_bind_pure_iff.mp hends
    exact works_startProject hstart
  | write code =>
    obtain ⟨o', hwrite, -⟩ := ends_bind_pure_iff.mp hends
    exact works_writeSuites hwrite
  | locate =>
    obtain ⟨o', hlocate, -⟩ := ends_bind_pure_iff.mp hends
    exact works_projectDirectory.of_ends hlocate
  | run r =>
    obtain ⟨o', hrun, -⟩ := ends_bind_pure_iff.mp hends
    exact works_run hrun
  | cleanUp => exact absurd rfl h

/-- Cleaning up forgets the project, and takes its directory away if it is a temporary one that is
there. -/
theorem after_cleanUp (c : Config) (s : Session) :
    ∃ records, Operation.cleanUp.after c s =
      { s with
        project := { s.project with directory := none }
        files := match s.project.directory with
          | some d =>
            if s.project.isTemporary ∧ s.files.hasPath s.workingDirectory d then
              s.files.removeBelow (d.resolve s.workingDirectory)
            else s.files
          | none => s.files
        records } := by
  have hafter : Operation.cleanUp.after c s = (Forge.cleanUp.run s).2 := rfl
  rw [hafter, Forge.cleanUp]
  simp only [StateT.run_bind, StateT.run_get, pure_bind]
  cases s.project.directory with
  | none => exact ⟨_, rfl⟩
  | some d =>
    dsimp only
    split
    · exact ⟨_, rfl⟩
    · exact ⟨_, rfl⟩

/-- Only making a project and running suites call the tool. -/
lemma makesOnly_after_quiet {P : Call → Prop} {op : Operation} (hstart : op ≠ .start)
    (hrun : ∀ r, op ≠ .run r) (s : Session) : MakesOnly P s (op.after c s) := by
  have hends := ends_perform c op s
  cases op with
  | start => exact absurd rfl hstart
  | write code =>
    obtain ⟨o', hwrite, -⟩ := ends_bind_pure_iff.mp hends
    exact (quiet_writeSuites c code).calls.makesOnly hwrite
  | locate =>
    obtain ⟨o', hlocate, -⟩ := ends_bind_pure_iff.mp hends
    exact quiet_projectDirectory.calls.makesOnly hlocate
  | run r => exact absurd rfl (hrun r)
  | cleanUp =>
    obtain ⟨records, hafter⟩ := after_cleanUp c s
    rw [hafter]
    exact .none rfl rfl rfl

lemma makes_after_quiet {op : Operation} (hstart : op ≠ .start) (hrun : ∀ r, op ≠ .run r)
    (s : Session) : Makes [] s (op.after c s) :=
  (makesOnly_after_quiet hstart hrun s).makes_nil

/-! ## Calls of the tests -/

/-- In a run that starts in a session the tests are called in another one: a project is there by
then, and the suites are written. -/
structure TestsIn (c : Config) (r : Request) (s at_ : Session) (call : Call) : Prop where
  prepared : ∃ s₁ path, Ends (ensureProject c) s (.ok ()) s₁ ∧
    Ends (writeSuites c r.code) s₁ (.ok path) at_
  called : ∃ o s₂, Ends (test c r) at_ o s₂ ∧ Makes [call] at_ s₂

/-- A call of the tests in a run is the last one, when the suites are written; in front of it are
those that made the project. -/
lemma testsIn_of_run {r : Request} {o : Except Stop SuiteRun} {calls : List Call} {call : Call}
    (h : Ends (Forge.run c r) s o s') (hmakes : Makes calls s s') (hcall : call ∈ calls)
    (htest : call.command = .test) :
    ∃ at_ directory installs, TestsIn c r s at_ call ∧ at_.project.directory = some directory ∧
      call = testCall c r directory ∧ Makes installs s at_ ∧ call ∉ installs ∧
      calls = installs ++ [call] := by
  have hother {calls : List Call} (honly : ∀ c ∈ calls, c.command = .install) : call ∉ calls := by
    intro hmem
    have hcommand := honly call hmem
    rw [htest] at hcommand
    cases hcommand
  cases stages_of_run h with
  | unopened opens =>
    exact absurd hcall (hother (hmakes.of_only ((calls_ensureProject c).makesOnly opens)))
  | unwritten opens writes =>
    obtain ⟨installs, hopens, honly⟩ := (calls_ensureProject c).exists_makes opens
    have hbefore := hopens.trans ((quiet_writeSuites c r.code).makes_of_ends writes)
    rw [List.append_nil] at hbefore
    exact absurd hcall (hmakes.unique hbefore ▸ hother honly)
  | @tested s₁ s₂ s₃ path o opens writes tests reads =>
    obtain ⟨installs, hopens, honly⟩ := (calls_ensureProject c).exists_makes opens
    have hbefore := hopens.trans ((quiet_writeSuites c r.code).makes_of_ends writes)
    rw [List.append_nil] at hbefore
    rcases ends_test tests with ⟨rfl, -⟩ | ⟨directory, hdirectory, hmade, -⟩
    · have hall := hbefore.trans reads.makes
      rw [List.append_nil] at hall
      exact absurd hcall (hmakes.unique hall ▸ hother honly)
    · have hall := (hbefore.trans hmade).trans reads.makes
      rw [List.append_nil] at hall
      obtain rfl := hmakes.unique hall
      obtain rfl : call = testCall c r directory :=
        List.mem_singleton.mp ((List.mem_append.mp hcall).resolve_left (hother honly))
      exact ⟨s₂, directory, installs, ⟨⟨s₁, path, opens, writes⟩, o, s₃, tests, hmade⟩, hdirectory,
        rfl, hbefore, hother honly, rfl⟩

/-- Only runs call the tests. -/
lemma testsIn_of_mem {op : Operation} {calls : List Call} {call : Call}
    (hmakes : Makes calls s (op.after c s)) (hcall : call ∈ calls) (htest : call.command = .test) :
    ∃ r at_ directory installs, op = .run r ∧ TestsIn c r s at_ call ∧
      at_.project.directory = some directory ∧ call = testCall c r directory ∧
      Makes installs s at_ ∧ call ∉ installs ∧ calls = installs ++ [call] := by
  have hends := ends_perform c op s
  by_cases hrun : ∃ r, op = .run r
  · obtain ⟨r, rfl⟩ := hrun
    obtain ⟨o', hrun, -⟩ := ends_bind_pure_iff.mp hends
    obtain ⟨at_, directory, installs, htests⟩ := testsIn_of_run hrun hmakes hcall htest
    exact ⟨r, at_, directory, installs, rfl, htests⟩
  · by_cases hstart : op = .start
    · subst hstart
      obtain ⟨o', hstart, -⟩ := ends_bind_pure_iff.mp hends
      have hcommand := hmakes.of_only ((calls_startProject c).makesOnly hstart) call hcall
      rw [htest] at hcommand
      cases hcommand
    · have hquiet := makes_after_quiet (c := c) hstart (fun r h => hrun ⟨r, h⟩) s
      rw [hmakes.unique hquiet] at hcall
      cases hcall

end HoneypotAudit.Forge
