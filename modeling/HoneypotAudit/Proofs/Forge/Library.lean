import HoneypotAudit.Proofs.Forge.Projects
import Mathlib.Data.List.Induction

/-!
# The library of the suites

Making a project fetches the library that the suites need, if it is not there (`ends_startProject`).
What is made by then stays the project even if that fails, and later runs find a project and do not
make one: between the making of a project and the next one only tests are called (`Since`).  So a
failed fetch is not tried again, and the tests run without the library
(`library_not_fetched_again`).

The main statement, `library_before_tests_iff`, is when the library is there for a call of the
tests: it was found or fetched when the project was made, or it had been fetched before.
-/

namespace HoneypotAudit.Forge

open HoneypotAudit.Files HoneypotAudit.Session

variable {c : Config} {s s' : Session}

/-! ## The library -/

/-- Whether the library is in a directory. -/
def hasLibrary (s : Session) (directory : Path) : Bool :=
  s.files.hasPath s.workingDirectory (directory.join libraryPath)

/-- Whether a call came to its end with status 0. -/
def Outcome.succeeded : Outcome → Bool
  | .finished output => output.status = 0
  | _ => false

/-- Whether one of some calls fetched the library into a directory. -/
def fetched (directory : Path) : Script → List Call → Bool
  | _, [] => false
  | script, call :: rest =>
    (call.command = .install && call.directory = some directory.text &&
      ((script.next .install).1.outcome "").succeeded) ||
      fetched directory (script.next call.command).2 rest

lemma fetched_append (directory : Path) (script : Script) (before after : List Call) :
    fetched directory script (before ++ after) =
      (fetched directory script before || fetched directory (script.behind before) after) := by
  induction before generalizing script with
  | nil => rfl
  | cons call rest ih => rw [List.cons_append, fetched, fetched, ih, Bool.or_assoc]; rfl

lemma fetched_of_tests {directory : Path} {script : Script} {calls : List Call}
    (h : ∀ call ∈ calls, call.command = .test) : fetched directory script calls = false := by
  induction calls generalizing script with
  | nil => rfl
  | cons call rest ih =>
    have hcall : call.command ≠ .install := by
      rw [h call List.mem_cons_self]
      decide
    rw [fetched, ih fun call hmem => h call (List.mem_cons_of_mem _ hmem)]
    simp [hcall]

/-! ## Making a project -/

/-- The library is fetched by one call, and well if that succeeds. -/
lemma ends_install {directory : Path} {o : Except Stop Unit}
    (hproject : s.project.directory = some directory) (h : Ends (install c) s o s') :
    Makes [installCall c directory] s s' ∧
      (o = .ok () ↔ ((s.forge.next .install).1.outcome "").succeeded = true) := by
  rcases ends_bind_iff.mp h with ⟨e, hfail, -⟩ | ⟨d, s₁, hdirectory, hrest⟩
  · have hnone := (ends_projectDirectory_iff.mp hfail).1
    rw [hproject] at hnone
    cases hnone
  obtain ⟨hd, rfl⟩ := ends_projectDirectory_ok_iff.mp hdirectory
  obtain rfl : d = directory := Option.some.inj (hd.symm.trans hproject)
  obtain ⟨outcome, s₂, hcall, hlast⟩ := ends_lift_bind_iff.mp hrest
  obtain ⟨houtcome, rfl⟩ := ends_lift_iff.mp hcall
  have hmakes := makes_call (installCall c d) "" s₁
  have hscript : (s₁.forge.next .install).1.outcome "" = outcome := (Except.ok.inj houtcome).symm
  rw [hscript]
  cases outcome with
  | missing =>
    obtain ⟨rfl, rfl⟩ := ends_throw_iff.mp hlast
    exact ⟨hmakes, by simp [Outcome.succeeded]⟩
  | timedOut =>
    obtain ⟨rfl, rfl⟩ := ends_throw_iff.mp hlast
    exact ⟨hmakes, by simp [Outcome.succeeded]⟩
  | finished output =>
    dsimp only at hlast
    split at hlast
    · next hstatus =>
      obtain ⟨rfl, rfl⟩ := ends_pure_iff.mp hlast
      exact ⟨hmakes, by simp [Outcome.succeeded, hstatus]⟩
    · next hstatus =>
      obtain ⟨rfl, rfl⟩ := ends_throw_iff.mp hlast
      exact ⟨hmakes, by simp [Outcome.succeeded, hstatus]⟩

lemma quiet_makeFolders (directory : Path) (names : List String) :
    Quiet (forIn names PUnit.unit fun name _ => (do
      Step.ofFiles (makeDirectories (directory.join (.relative [name])))
      pure (.yield .unit) : Step (ForInStep PUnit))).run :=
  Calls.run_forIn (fun _ _ =>
    Calls.run_bind (quiet_ofFiles (quiet_makeDirectories _)) fun _ => calls_run_pure _) _

/-- The last step is a record of the log. -/
lemma ends_logged {record : Log.Record} {directory : Path} {o : Except Stop Path}
    (h : Ends (do
      let _ ← liftM (Session.log record)
      pure directory) s o s') : LogsOnly s s' ∧ o = .ok directory := by
  obtain ⟨o', hlogged, rfl⟩ := ends_bind_pure_iff.mp h
  obtain ⟨rfl, rfl⟩ := ends_lift_iff.mp hlogged
  exact ⟨logsOnly_log _ s, rfl⟩

/-- A project is furnished, and then the library is fetched if it is not there. -/
lemma startProject_cases {o : Except Stop Path} (h : Ends (startProject c) s o s') :
    ∃ directory, s'.project.directory = some directory ∧
      ((Makes [] s s' ∧ ∃ e, o = .error e) ∨
        ∃ s₁ s₂, Makes [] s s₁ ∧ LogsOnly s₂ s' ∧
          if hasLibrary s₁ directory then s₂ = s₁ ∧ o = .ok directory
          else ∃ o₁, Ends (install c) s₁ o₁ s₂ ∧ o = o₁.map fun _ => directory) := by
  have hproject : s'.project.directory = some ((chooseDirectory c).run s).1 := by
    rw [(works_startProject h).project, directory_opened]
  obtain ⟨directory, s₁, hchosen, h₁⟩ := ends_lift_bind_iff.mp h
  have hfirst : Makes [] s s₁ := (quiet_chooseDirectory c).makes_of_lift hchosen
  rw [← Except.ok.inj (ends_lift_iff.mp hchosen).1] at hproject
  refine ⟨directory, hproject, ?_⟩
  have hloop := quiet_makeFolders directory ["src", "test", "lib"]
  rcases ends_bind_iff.mp h₁ with ⟨e, hfail, ho⟩ | ⟨_, s₂, hmade, h₂⟩
  · exact .inl ⟨hfirst.trans (hloop.makes_of_ends hfail), e, ho⟩
  have hfolders : Makes [] s s₂ := hfirst.trans (hloop.makes_of_ends hmade)
  have hfiles {change} : Quiet (Step.ofFiles (changeFiles change)).run :=
    quiet_ofFiles (quiet_changeFiles change)
  rcases ends_bind_iff.mp h₂ with ⟨e, hfail, ho⟩ | ⟨_, s₃, hwritten, h₃⟩
  · exact .inl ⟨hfolders.trans (hfiles.makes_of_ends hfail), e, ho⟩
  have hfront : Makes [] s s₃ := hfolders.trans (hfiles.makes_of_ends hwritten)
  rw [ends_get_bind_iff] at h₃
  refine .inr ⟨s₃, ?_⟩
  dsimp only at h₃
  rw [hasLibrary]
  cases hfound : s₃.files.hasPath s₃.workingDirectory (directory.join libraryPath) with
  | true =>
    rw [hfound] at h₃
    obtain ⟨hlogs, ho⟩ := ends_logged h₃
    exact ⟨s₃, hfront, hlogs, rfl, ho⟩
  | false =>
    rw [hfound] at h₃
    rcases ends_bind_iff.mp h₃ with ⟨e, hfail, rfl⟩ | ⟨_, s₄, hinstalled, h₄⟩
    · exact ⟨s', hfront, refl_of _ s', _, hfail, rfl⟩
    · obtain ⟨hlogs, rfl⟩ := ends_logged h₄
      exact ⟨s₄, hfront, hlogs, _, hinstalled, rfl⟩

/-- **What making a project does about the library.**  If it comes to its end the library was found
or fetched, and it does come to its end if the library was fetched. -/
theorem ends_startProject {o : Except Stop Path} (h : Ends (startProject c) s o s') :
    ∃ directory calls, s'.project.directory = some directory ∧ Makes calls s s' ∧
      ((∃ path, o = .ok path) → hasLibrary s' directory ∨ fetched directory s.forge calls) ∧
      (fetched directory s.forge calls → ∃ path, o = .ok path) := by
  obtain ⟨directory, hproject, ⟨hmakes, e, rfl⟩ | ⟨s₁, s₂, hfront, ⟨records, rfl⟩, hcases⟩⟩ :=
    startProject_cases h
  · exact ⟨directory, [], hproject, hmakes, by simp, by simp [fetched]⟩
  refine ⟨directory, ?_⟩
  split at hcases
  · next hfound =>
    obtain ⟨rfl, rfl⟩ := hcases
    exact ⟨[], hproject, hfront.trans (.none rfl rfl), fun _ => .inl hfound, by simp [fetched]⟩
  · obtain ⟨o₁, hinstall, rfl⟩ := hcases
    have hsame : s₁.project.directory = some directory := by
      rw [← hproject, ← ((@works_install c none).of_ends hinstall).project]
    obtain ⟨hmade, hok⟩ := ends_install hsame hinstall
    have hscript : s₁.forge = s.forge := hfront.script
    have hfetched : fetched directory s.forge [installCall c directory] =
        ((s.forge.next .install).1.outcome "").succeeded := by
      simp [fetched, installCall]
    refine ⟨_, hproject, (hfront.trans hmade).trans (.none rfl rfl), ?_⟩
    rw [hscript, ← hfetched] at hok
    simp only [List.nil_append, List.append_nil, ← hok]
    cases o₁ with
    | error e => simp [Except.map]
    | ok _ => simp [Except.map]

/-! ## Between one project and the next -/

/-- The session in which the last project was begun in the course of some operations. -/
def lastBeginning (c : Config) : List Operation → Session → Option Session
  | [], _ => none
  | op :: ops, s => lastBeginning c ops (op.after c s) <|> if op.opens s then some s else none

lemma lastBeginning_concat (c : Config) (ops : List Operation) (op : Operation) (s : Session) :
    lastBeginning c (ops ++ [op]) s =
        if op.opens (performAll c ops s) then some (performAll c ops s)
        else lastBeginning c ops s := by
  induction ops generalizing s with
  | nil => rfl
  | cons first ops ih =>
    rw [List.cons_append, lastBeginning, ih, lastBeginning, performAll_cons]
    split
    · rfl
    · rfl

/-- A project was made from one session to another one, and since then only tests were called. -/
structure MadeSince (c : Config) (begun : Session) (o : Except Stop Path) (made s : Session) :
    Prop where
  makes : Ends (startProject c) begun o made
  project : s.project = made.project
  tests : MakesOnly (·.command = .test) made s

/-- Behind the making of its project a run calls nothing but the tests. -/
lemma tests_of_run {r : Request} {o : Except Stop SuiteRun} (h : Ends (Forge.run c r) s o s') :
    ∃ o₁ s₁, Ends (ensureProject c) s o₁ s₁ ∧ s'.project = s₁.project ∧
      MakesOnly (·.command = .test) s₁ s' := by
  cases stages_of_run h with
  | unopened opens => exact ⟨_, s', opens, rfl, refl_of _ s'⟩
  | @unwritten s₁ e opens writes =>
    exact ⟨_, s₁, opens, (works_writeSuites writes).project,
      (quiet_writeSuites c r.code).calls.makesOnly writes⟩
  | @tested s₁ s₂ s₃ path o opens writes tests reads =>
    have hproject : s₃.project = s₁.project :=
      (((@works_test c none r).of_ends tests).project).trans (works_writeSuites writes).project
    have hcalls : MakesOnly (·.command = .test) s₁ s₃ :=
      trans_of _ ((quiet_writeSuites c r.code).calls.makesOnly writes)
        ((calls_test c r).makesOnly tests)
    have hreads : MakesOnly (·.command = .test) s₃ s' := reads.makesOnly
    obtain ⟨records, rfl⟩ := reads
    exact ⟨_, s₁, opens, hproject, trans_of _ hcalls hreads⟩

/-- One operation makes the project, or leaves it and calls at most the tests. -/
lemma madeSince_after {op : Operation} {directory : Path}
    (hproject : (op.after c s).project.directory = some directory) :
    if op.opens s then ∃ o made, MadeSince c s o made (op.after c s)
    else (op.after c s).project = s.project ∧ MakesOnly (·.command = .test) s (op.after c s) := by
  have hends := ends_perform c op s
  have hstays (hstart : op ≠ .start) (hrun : ∀ r, op ≠ .run r) (hclean : op ≠ .cleanUp) :
      op.within c s = s → (op.after c s).project = s.project ∧
        MakesOnly (·.command = .test) s (op.after c s) := fun hwithin =>
    ⟨(works_after hclean s).project.trans (congrArg _ hwithin),
      makesOnly_after_quiet hstart hrun s⟩
  cases op with
  | start =>
    obtain ⟨o, hstart, -⟩ := ends_bind_pure_iff.mp hends
    exact ⟨o, _, hstart, rfl, refl_of _ _⟩
  | write code => exact hstays nofun nofun nofun rfl
  | locate => exact hstays nofun nofun nofun rfl
  | run r =>
    obtain ⟨o, hrun, -⟩ := ends_bind_pure_iff.mp hends
    obtain ⟨o₁, s₁, hensure, hkept, htests⟩ := tests_of_run hrun
    rw [ends_ensureProject_iff] at hensure
    rw [Operation.opens]
    split
    · next hnone =>
      rw [if_pos hnone] at hensure
      obtain ⟨o', hstart, -⟩ := hensure
      exact ⟨o', s₁, hstart, hkept, htests⟩
    · next hsome =>
      rw [if_neg hsome] at hensure
      obtain ⟨-, rfl⟩ := hensure
      exact ⟨hkept, htests⟩
  | cleanUp =>
    obtain ⟨records, hafter⟩ := after_cleanUp c s
    rw [hafter] at hproject
    cases hproject

/-- Every operation makes some calls. -/
lemma exists_makes_after (c : Config) (op : Operation) (s : Session) :
    ∃ calls, Makes calls s (op.after c s) := by
  have hends := ends_perform c op s
  by_cases hrun : ∃ r, op = .run r
  · obtain ⟨r, rfl⟩ := hrun
    obtain ⟨o, hrun, -⟩ := ends_bind_pure_iff.mp hends
    exact ((calls_run c r).exists_makes hrun).imp fun _ h => h.1
  by_cases hstart : op = .start
  · subst hstart
    obtain ⟨o, hstart, -⟩ := ends_bind_pure_iff.mp hends
    exact ((calls_startProject c).exists_makes hstart).imp fun _ h => h.1
  · exact ⟨[], makes_after_quiet hstart (fun r h => hrun ⟨r, h⟩) s⟩

lemma exists_makes_performAll (c : Config) (ops : List Operation) (s : Session) :
    ∃ calls, Makes calls s (performAll c ops s) := by
  induction ops generalizing s with
  | nil => exact ⟨[], .none rfl rfl⟩
  | cons op ops ih =>
    obtain ⟨first, hfirst⟩ := exists_makes_after c op s
    obtain ⟨rest, hrest⟩ := ih (op.after c s)
    exact ⟨first ++ rest, hfirst.trans hrest⟩

/-- A project at the end of some operations is the last one that was made. -/
lemma madeSince_performAll {s₀ : Session} (h₀ : s₀.project.directory = none)
    {ops : List Operation} {directory : Path}
    (hproject : (performAll c ops s₀).project.directory = some directory) :
    ∃ begun o made, lastBeginning c ops s₀ = some begun ∧ (∃ calls, Makes calls s₀ begun) ∧
      MadeSince c begun o made (performAll c ops s₀) := by
  induction ops using List.reverseRecOn with
  | nil =>
    rw [performAll, List.foldl_nil, h₀] at hproject
    cases hproject
  | append_singleton ops op ih =>
    rw [performAll_concat] at hproject ⊢
    rw [lastBeginning_concat]
    have hstep := madeSince_after hproject
    split at hstep
    · next hopens =>
      obtain ⟨o, made, hmade⟩ := hstep
      exact ⟨_, o, made, if_pos hopens, exists_makes_performAll c ops s₀, hmade⟩
    · next hopens =>
      obtain ⟨hkept, htests⟩ := hstep
      rw [hkept] at hproject
      obtain ⟨begun, o, made, hlast, hcalls, hmade⟩ := ih hproject
      rw [if_neg hopens]
      exact ⟨begun, o, made, hlast, hcalls, hmade.makes, hkept.trans hmade.project,
        trans_of _ hmade.tests htests⟩

/-- The project of a run, when the run has one. -/
lemma madeSince_ensureProject {s₀ s₁ : Session} (h₀ : s₀.project.directory = none)
    {ops : List Operation} {r : Request}
    (h : Ends (ensureProject c) (performAll c ops s₀) (.ok ()) s₁) :
    ∃ begun o made, lastBeginning c (ops ++ [.run r]) s₀ = some begun ∧
      (∃ calls, Makes calls s₀ begun) ∧ MadeSince c begun o made s₁ := by
  rw [ends_ensureProject_iff] at h
  rw [lastBeginning_concat, Operation.opens]
  split at h
  · next hnone =>
    obtain ⟨o, hstart, -⟩ := h
    exact ⟨_, o, s₁, if_pos hnone, exists_makes_performAll c ops s₀, hstart, rfl, refl_of _ _⟩
  · next hsome =>
    obtain ⟨-, rfl⟩ := h
    obtain ⟨directory, hproject⟩ := Option.ne_none_iff_exists'.mp (by simpa using hsome)
    rw [if_neg hsome]
    exact madeSince_performAll h₀ hproject

/-! ## Calls of the tests -/

/-- What stands in front of a call of the tests in a run. -/
lemma eq_of_append_cons_eq {during later installs : List Call} {call : Call}
    (h : during ++ call :: later = installs ++ [call]) (hother : call ∉ installs) :
    during = installs := by
  rcases List.append_eq_append_iff.mp h with ⟨rest, hsplit, hrest⟩ | ⟨rest, hsplit, hrest⟩
  · cases rest with
    | nil => rw [hsplit, List.append_nil]
    | cons first rest =>
      obtain rfl := (List.cons.inj hrest).1
      exact absurd (hsplit ▸ List.mem_append_right during List.mem_cons_self) hother
  · cases rest with
    | nil => rw [hsplit, List.append_nil]
    | cons first rest => simp at hrest

/-- **When the library is there for the tests.**  After any operations on new test runs, whatever
their calls of the tool came to, let an operation call the tests.  The call is in the directory of
the project that was made last, and the calls since then called nothing but the tests.  The library
had been found when that project was made, or had been fetched into the directory at some time,
exactly if the making of the project came to its end, or found the library, or the library had been
fetched into the directory before. -/
theorem library_before_tests_iff {s₀ : Session} (h₀ : s₀.project.directory = none)
    {ops : List Operation} {op : Operation} {earlier during later : List Call} {call : Call}
    (hearlier : Makes earlier s₀ (performAll c ops s₀))
    (hmakes : Makes (during ++ call :: later) (performAll c ops s₀)
      (op.after c (performAll c ops s₀)))
    (htest : call.command = .test) :
    ∃ directory begun o made before making since,
      call.directory = some directory.text ∧ lastBeginning c (ops ++ [op]) s₀ = some begun ∧
      Ends (startProject c) begun o made ∧ made.project.directory = some directory ∧
      Makes before s₀ begun ∧ Makes making begun made ∧
      earlier ++ during = before ++ making ++ since ∧ (∀ call ∈ since, call.command = .test) ∧
      (hasLibrary made directory ∨ fetched directory s₀.forge (earlier ++ during) ↔
        (∃ path, o = .ok path) ∨ hasLibrary made directory ∨
          fetched directory s₀.forge before) := by
  obtain ⟨r, at_, directory, installs, rfl, htests, hproject, rfl, hinstalls, hother, hsplit⟩ :=
    testsIn_of_mem hmakes (List.mem_append_right during List.mem_cons_self) htest
  obtain rfl := eq_of_append_cons_eq hsplit hother
  obtain ⟨s₁, path, hensure, hwrites⟩ := htests.prepared
  obtain ⟨begun, o, made, hlast, ⟨before, hbefore⟩, hmade⟩ :=
    madeSince_ensureProject (r := r) h₀ hensure
  obtain ⟨d, making, hd, hmaking, hfinished, hfetched⟩ := ends_startProject hmade.makes
  obtain ⟨since, hsince, hsinceTests⟩ := hmade.tests.makes
  have hwritten := (quiet_writeSuites c r.code).makes_of_ends hwrites
  obtain rfl : d = directory := by
    have hkept := (works_writeSuites hwrites).project
    rw [hkept, hmade.project, hd] at hproject
    exact Option.some.inj hproject
  have hcalls : earlier ++ during = before ++ making ++ since := by
    have hall := ((hbefore.trans hmaking).trans hsince).trans hwritten
    rw [List.append_nil] at hall
    exact (hearlier.trans hinstalls).unique hall
  refine ⟨d, begun, o, made, before, making, since, rfl, hlast, hmade.makes, hd, hbefore, hmaking,
    hcalls, hsinceTests, ?_⟩
  rw [hcalls, fetched_append, fetched_append, fetched_of_tests hsinceTests, ← hbefore.script,
    Bool.or_false, Bool.or_eq_true]
  constructor
  · rintro (hfound | hbeforehand | hmadeNow)
    · exact .inr (.inl hfound)
    · exact .inr (.inr hbeforehand)
    · exact .inl (hfetched hmadeNow)
  · rintro (hfinish | hfound | hbeforehand)
    · exact (hfinished hfinish).imp id .inr
    · exact .inl hfound
    · exact .inr (.inl hbeforehand)

/-- New test runs whose first fetch of the library fails. -/
def unfetchedSession : Session :=
  { rooms := .same 8
    forge := { installing := [.finished 1 none "network down"] } }

/-- Some suites to run. -/
def unfetchedRequest : Request :=
  { code := "contract Suites {}", scenarios := [.hiddenMint] }

theorem library_before_tests_iff_secondStart :
    let c : Config := { projectDirectory := some "project" }
    let directory : Path := .relative ["project"]
    let earlier := [installCall c directory, installCall c directory]
    let s := performAll c [.start, .start] unfetchedSession
    unfetchedSession.project.directory = none ∧ Makes earlier unfetchedSession s ∧
      Makes ([] ++ testCall c unfetchedRequest directory :: []) s
        (Operation.after c (.run unfetchedRequest) s) ∧
      ∃ d begun o made before making since,
        directory.text = Path.text d ∧
        lastBeginning c ([.start, .start] ++ [.run unfetchedRequest]) unfetchedSession =
          some begun ∧
        Ends (startProject c) begun o made ∧ made.project.directory = some d ∧
        Makes before unfetchedSession begun ∧ Makes making begun made ∧
        earlier ++ [] = before ++ making ++ since ∧ (∀ call ∈ since, call.command = .test) ∧
        (hasLibrary made d ∨ fetched d unfetchedSession.forge (earlier ++ []) ↔
          (∃ path, o = .ok path) ∨ hasLibrary made d ∨
            fetched d unfetchedSession.forge before) := by
  intro c directory earlier s
  have hearlier : Makes earlier unfetchedSession s := ⟨by decide +kernel, by decide +kernel⟩
  have hmakes : Makes ([] ++ testCall c unfetchedRequest directory :: []) s
      (Operation.after c (.run unfetchedRequest) s) := ⟨by decide +kernel, by decide +kernel⟩
  obtain ⟨d, begun, o, made, before, making, since, hd, hrest⟩ :=
    library_before_tests_iff (rfl : unfetchedSession.project.directory = none) hearlier hmakes rfl
  exact ⟨rfl, hearlier, hmakes, d, begun, o, made, before, making, since, Option.some.inj hd, hrest⟩

/-- A fetch that failed is not tried again: the first run ends with it, and the second one calls the
tests without the library. -/
theorem library_not_fetched_again :
    let directory := temporaryPath 0
    let runs := [Operation.run unfetchedRequest, .run unfetchedRequest]
    let s₁ := performAll {} [.run unfetchedRequest] unfetchedSession
    s₁.forgeCalls = [installCall {} directory] ∧ hasLibrary s₁ directory = false ∧
      fetched directory unfetchedSession.forge [installCall {} directory] = false ∧
      (performAll {} runs unfetchedSession).forgeCalls =
        [installCall {} directory, testCall {} unfetchedRequest directory] := by
  decide +kernel

end HoneypotAudit.Forge
