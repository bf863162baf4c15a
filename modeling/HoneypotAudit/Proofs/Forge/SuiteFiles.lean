import HoneypotAudit.Proofs.Forge.Projects

/-!
# The files of a project

What the tests of a run read is what the run wrote (`find_of_writeSuites`), whatever was in the file
before.  In a fixed directory nothing else changes: over any operations no file and no directory
goes, and only the settings and the suites are written (`grows_performAll`).

The main statement is `suites_seen_and_files_kept`.
-/

namespace HoneypotAudit.Forge

open HoneypotAudit.Files HoneypotAudit.Session HoneypotAudit.Text

variable {c : Config} {s s' : Session}

/-! ## What the tests see -/

/-- What is at a path in a session. -/
def entryAt (s : Session) (p : Path) : Except FaultKind Entry :=
  s.files.find (Tree.startOf s.workingDirectory p) p.parts

/-- Suites that were written are in their file. -/
lemma entryAt_of_writeSuites {code : String} {path : Path}
    (h : Ends (writeSuites c code) s (.ok path) s') :
    ∃ directory, s.project.directory = some directory ∧
      path = directory.join (.ofText c.testFile) ∧
      entryAt s' path = .ok (.file (Utf8.encode code.toList)) := by
  obtain ⟨directory, s₁, hdirectory, hmade⟩ := ends_bind_ok_iff.mp h
  obtain ⟨_, s₂, -, hwritten⟩ := ends_bind_ok_iff.mp hmade
  obtain ⟨_, s₃, hwrite, hlast⟩ := ends_bind_ok_iff.mp hwritten
  obtain ⟨hpath, rfl⟩ := ends_pure_iff.mp hlast
  obtain ⟨o, hchange, ho⟩ := ends_adapt_iff.mp hwrite
  obtain ⟨rfl, rfl⟩ := ends_changeFiles_iff.mp hchange
  obtain ⟨hproject, rfl⟩ := ends_projectDirectory_ok_iff.mp hdirectory
  refine ⟨directory, hproject, Except.ok.inj hpath, ?_⟩
  rw [Except.ok.inj hpath]
  refine Tree.find_write ?_
  cases hfault : (s₂.files.write s₂.workingDirectory (directory.join (.ofText c.testFile))
      (Utf8.encode code.toList)).fault with
  | none => rfl
  | some fault => rw [hfault] at ho; cases ho

/-! ## What stays in a fixed directory -/

/-- The project of a session is in a fixed directory, if there is one, and was in none that would be
removed. -/
structure IsFixed (text : String) (s : Session) : Prop where
  stays : s.project.isTemporary = false
  directory : ∀ d ∈ s.project.directory, d = .ofText text

variable {text : String}

lemma IsFixed.within (hfixed : c.fixedDirectory? = some text) (h : IsFixed text s)
    (op : Operation) : IsFixed text (op.within c s) := by
  rw [Operation.within, opened_of_fixed hfixed]
  split
  · exact ⟨rfl, fun d hd => (Option.some.inj hd).symm⟩
  · exact h

lemma IsFixed.of_project (h : IsFixed text s) (hproject : s'.project = s.project) :
    IsFixed text s' :=
  ⟨by rw [hproject]; exact h.stays, by rw [hproject]; exact h.directory⟩

/-- What operations on a fixed directory do to the files: the settings and the suites are
written. -/
structure KeepsFiles (c : Config) (text : String) (s s' : Session) : Prop where
  workingDirectory : s'.workingDirectory = s.workingDirectory
  files : Tree.Grows (writtenPlaces c (some (.ofText text)) s.workingDirectory) Set.univ
    s.files s'.files

instance : IsPreorder Session (KeepsFiles c text) where
  refl s := ⟨rfl, refl_of _ s.files⟩
  trans _ _ _ h h' := {
    workingDirectory := h'.workingDirectory.trans h.workingDirectory
    files := trans_of _ h.files (h.workingDirectory ▸ h'.files) }

/-- Choosing a fixed directory changes no file. -/
lemma keepsFiles_within (hfixed : c.fixedDirectory? = some text) (op : Operation) (s : Session) :
    KeepsFiles c text s (op.within c s) := by
  rw [Operation.within, opened_of_fixed hfixed]
  split
  · exact ⟨rfl, refl_of _ s.files⟩
  · exact refl_of _ s

/-- One operation. -/
lemma keepsFiles_after (hfixed : c.fixedDirectory? = some text) (h : IsFixed text s)
    (op : Operation) : IsFixed text (op.after c s) ∧ KeepsFiles c text s (op.after c s) := by
  by_cases hclean : op = .cleanUp
  · subst hclean
    obtain ⟨records, hafter⟩ := after_cleanUp c s
    have hfiles : (Operation.cleanUp.after c s).files = s.files := by
      rw [hafter]
      cases s.project.directory <;> simp [h.stays]
    refine ⟨⟨?_, ?_⟩, ?_, ?_⟩
    · rw [hafter]
      exact h.stays
    · rw [hafter]
      exact fun d hd => nomatch hd
    · rw [hafter]
    · rw [hfiles]
      exact refl_of _ s.files
  · have hworks := works_after (c := c) hclean s
    have hwithin := h.within hfixed op
    refine ⟨hwithin.of_project hworks.project, trans_of _ (keepsFiles_within hfixed op s) ?_⟩
    refine ⟨hworks.workingDirectory, hworks.files.mono ?_ (Set.subset_univ _)⟩
    rintro place ⟨d, hd, hplace⟩
    exact ⟨d, congrArg some (hwithin.directory d hd).symm, hplace⟩

/-- Any operations. -/
lemma keepsFiles_performAll (hfixed : c.fixedDirectory? = some text) (h : IsFixed text s)
    (ops : List Operation) :
    IsFixed text (performAll c ops s) ∧ KeepsFiles c text s (performAll c ops s) := by
  induction ops generalizing s with
  | nil => exact ⟨h, refl_of _ s⟩
  | cons op ops ih =>
    obtain ⟨hop, hkeeps⟩ := keepsFiles_after hfixed h op
    obtain ⟨hops, hkeeps'⟩ := ih hop
    exact ⟨hops, trans_of _ hkeeps hkeeps'⟩

/-! ## Runs and files -/

/-- **Every test run sees its own suites, and a fixed project keeps everything else.**  After any
operations on new test runs, whatever their calls of the tool came to:

* the tests are called by runs only, and at the call the file of the suites, seen from the directory
  of the call, holds the suites of that run;
* in a fixed directory further operations take no file and no directory away, and no file changes
  but the settings and the suites. -/
theorem suites_seen_and_files_kept {c : Config} {s₀ : Session} (h₀ : s₀.project = {}) :
    (∀ (ops : List Operation) (op : Operation) (calls : List Call) (call : Call),
      Makes calls (performAll c ops s₀) (op.after c (performAll c ops s₀)) →
      call ∈ calls → call.command = .test →
      ∃ (r : Request) (at_ : Session) (directory : Path),
        op = .run r ∧ TestsIn c r (performAll c ops s₀) at_ call ∧
        call.directory = some directory.text ∧
        entryAt at_ (directory.join (.ofText c.testFile)) =
          .ok (.file (Utf8.encode r.code.toList))) ∧
    ∀ text, c.fixedDirectory? = some text → ∀ before after,
      let s := performAll c before s₀
      let s' := performAll c (before ++ after) s₀
      (∀ place, s.files.get? place = some .directory → s'.files.get? place = some .directory) ∧
      (∀ place content, s.files.get? place = some (.file content) →
        ∃ content', s'.files.get? place = some (.file content')) ∧
      ∀ place content, s.files.get? place = some (.file content) →
        place ≠ ((Path.ofText text).join settingsPath).resolve s₀.workingDirectory →
        place ≠ ((Path.ofText text).join (.ofText c.testFile)).resolve s₀.workingDirectory →
        s'.files.get? place = some (.file content) := by
  refine ⟨fun ops op calls call hmakes hcall htest => ?_, fun text hfixed before after => ?_⟩
  · obtain ⟨r, at_, directory, -, hrun, htests, hproject, rfl, -⟩ :=
      testsIn_of_mem hmakes hcall htest
    obtain ⟨s₁, path, -, hwrites⟩ := htests.prepared
    obtain ⟨d, hd, rfl, hentry⟩ := entryAt_of_writeSuites hwrites
    have hsame : d = directory := by
      have hkept := (works_writeSuites hwrites).project
      rw [← hkept, hproject] at hd
      exact (Option.some.inj hd).symm
    exact ⟨r, at_, directory, hrun, htests, rfl, hsame ▸ hentry⟩
  · have hnew : IsFixed text s₀ := ⟨by rw [h₀], by rw [h₀]; exact fun d hd => nomatch hd⟩
    obtain ⟨hbefore, hkept⟩ := keepsFiles_performAll hfixed hnew before
    have hfiles := (keepsFiles_performAll hfixed hbefore after).2.files
    rw [hkept.workingDirectory, ← performAll_append] at hfiles
    refine ⟨fun place h => hfiles.directory h, fun place content h => ?_,
      fun place content h hsettings hsuites => ?_⟩
    · obtain ⟨content', h', -⟩ := hfiles.file h
      exact ⟨content', h'⟩
    · obtain ⟨content', h', hkeep⟩ := hfiles.file h
      rw [h', hkeep]
      rintro ⟨d, hd, hplace⟩
      obtain rfl := Option.some.inj hd
      exact hplace.elim hsettings hsuites

/-- A run on a contract in a fixed directory. -/
def keptRequest : Request :=
  { code := "contract Suites {}", scenarios := [] }

/-- A fixed directory with a file in it; the tests fail. -/
def keptSession : Session :=
  { rooms := .same 8
    forge := { testing := [.finished 1 none "failed"] }
    files := ⟨[(["project"], .directory), (["project", "keep.txt"], .file [65])]⟩ }

theorem suites_seen_and_files_kept_failedRun :
    let c : Config := { projectDirectory := some "project" }
    let calls :=
      [installCall c (.relative ["project"]), testCall c keptRequest (.relative ["project"])]
    keptSession.project = {} ∧ c.fixedDirectory? = some "project" ∧
      Makes calls keptSession (Operation.after c (.run keptRequest) keptSession) ∧
      (∃ at_ directory, TestsIn c keptRequest keptSession at_
          (testCall c keptRequest (.relative ["project"])) ∧
        Path.text directory = "project" ∧
        entryAt at_ (directory.join (.relative ["test", "test.sol"])) =
          .ok (.file (Utf8.encode "contract Suites {}".toList))) ∧
      (performAll c [.run keptRequest, .cleanUp] keptSession).files.get? ["project", "keep.txt"] =
        some (.file [65]) := by
  intro c calls
  have hmakes : Makes calls keptSession (Operation.after c (.run keptRequest) keptSession) :=
    ⟨by decide +kernel, by decide +kernel⟩
  have hfixed : c.fixedDirectory? = some "project" := by decide
  have hfile : Path.ofText c.testFile = .relative ["test", "test.sol"] := by decide +kernel
  obtain ⟨hsees, hkeeps⟩ :=
    @suites_seen_and_files_kept c keptSession (rfl : keptSession.project = {})
  obtain ⟨r, at_, directory, hr, htests, hdirectory, hentry⟩ :=
    hsees [] (.run keptRequest) calls _ hmakes (List.mem_cons_of_mem _ List.mem_cons_self) rfl
  obtain rfl := Operation.run.inj hr
  obtain ⟨-, -, hunchanged⟩ := hkeeps "project" hfixed [] [.run keptRequest, .cleanUp]
  refine ⟨rfl, hfixed, hmakes, ⟨at_, directory, htests, ?_, ?_⟩, ?_⟩
  · exact (Option.some.inj hdirectory).symm
  · exact hfile ▸ hentry
  · exact hunchanged ["project", "keep.txt"] [65] (by decide) (by decide) (by decide)

end HoneypotAudit.Forge
