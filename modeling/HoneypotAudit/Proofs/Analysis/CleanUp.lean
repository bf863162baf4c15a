import HoneypotAudit.Proofs.Analysis.Reports
import HoneypotAudit.Proofs.Forge.Temporaries

/-!
# Cleaning up behind analyses

An analysis makes at most one temporary directory, and then the project is in it (`HoldsOne`,
`keeps_analyze`); so cleaning up behind it removes what it made, whatever it came to
(`get?_after_cleanUp`).
-/

namespace HoneypotAudit.Analysis

open HoneypotAudit.Files HoneypotAudit.Forge HoneypotAudit.Session HoneypotAudit.Steps

variable {a : Analyzer} {t : Task} {c : Config} {first : Nat} {s s' : Session}

/-- There is a place for temporary directories, and at most one was made since their number was
`first`; then it is there, and the project is in it. -/
structure HoldsOne (first : Nat) (s : Session) : Prop where
  root : s.files.get? temporaryRoot.parts = some .directory
  made : s.temporaries = first ∨
    s.temporaries = first + 1 ∧ s.project = ⟨some (temporaryPath first), true⟩ ∧
      s.files.get? (temporaryPath first).parts = some .directory

/-! ## Steps -/

/-- Work in a project makes no temporary directory and takes none away. -/
lemma HoldsOne.works {directory : Option Path} (h : HoldsOne first s)
    (hworks : Works c directory s s') : HoldsOne first s' where
  root := hworks.files.directory h.root
  made := by
    rw [hworks.temporaries, hworks.project]
    exact h.made.imp_right (And.imp_right (And.imp_right hworks.files.directory))

lemma HoldsOne.of_idles (h : HoldsOne first s) (hidle : Idles s s') : HoldsOne first s' := by
  have hworks : Works {} none s s' :=
    works_of_eq hidle.project hidle.temporaries hidle.workingDirectory hidle.files
  exact h.works hworks

/-- A project that is made where there is none gets the one directory. -/
lemma HoldsOne.opened (h : HoldsOne first s) (hnone : s.project.directory = none) :
    HoldsOne first (opened c s) := by
  have hcount : s.temporaries = first :=
    h.made.resolve_right fun ⟨_, hproject, _⟩ => by simp [hproject] at hnone
  cases hfixed : c.fixedDirectory? with
  | some text =>
    rw [opened_of_fixed hfixed]
    exact ⟨h.root, .inl hcount⟩
  | none =>
    rw [opened_of_temporary hfixed, hcount]
    refine ⟨?_, .inr ⟨rfl, rfl, Tree.get?_put_self (by simp [parts_temporaryPath])⟩⟩
    rw [Tree.get?_put_of_ne (by simp [parts_temporaryPath, temporaryRoot, Path.absolute])]
    exact h.root

lemma keeps_run (r : Request) : Moves (Keeps (HoldsOne first)) (Forge.run c r).run := by
  intro s h
  have hworks := works_run (rfl : Ends (Forge.run c r) s _ _)
  refine HoldsOne.works ?_ hworks
  rw [Operation.within, Operation.opens]
  split
  next hnone => exact h.opened (Option.isNone_iff_eq_none.mp hnone)
  next => exact h

/-! ## Analyses -/

/-- **An analysis holds at most one temporary directory.** -/
theorem keeps_analyze : Moves (Keeps (HoldsOne first)) (analyze a t).run := by
  have hidle (s s' : Session) (hidle : Idles s s') : Keeps (HoldsOne first) s s' :=
    fun h => h.of_idles hidle
  refine moves_analyze hidle (moves_prepare hidle (moves_format hidle fun usual s h => ?_) _ _)
    fun p => keeps_run _
  have hworks : Works {} none s ((Session.call a.preparing.formatter.call usual).run s).2 :=
    works_call a.preparing.formatter.call usual s
  exact h.works hworks

/-- Cleaning up makes no temporary directory. -/
lemma temporaries_after_cleanUp (s : Session) :
    (Forge.cleanUp.run s).2.temporaries = s.temporaries := by
  obtain ⟨records, hafter⟩ := Forge.after_cleanUp {} s
  exact congrArg (·.temporaries) hafter

/-- Cleaning up removes the directory that is held, with all that is below it. -/
theorem get?_after_cleanUp (h : HoldsOne first s) {n : Nat} {place : Location} (hfirst : first ≤ n)
    (hlt : n < s.temporaries) (hbelow : (temporaryPath n).parts <+: place) :
    (Forge.cleanUp.run s).2.files.get? place = none := by
  rcases h.made with hcount | ⟨hcount, hproject, hentry⟩
  · omega
  obtain rfl : n = first := by omega
  have howns : Owns n s := by
    refine ⟨h.root, hlt.le, fun d hd => ?_⟩
    rw [hproject] at hd ⊢
    exact ⟨rfl, n, hfirst, hlt, (Option.some.inj hd).symm, hentry⟩
  have hplace : place ≠ [] := by
    rintro rfl
    exact List.cons_ne_nil _ _ (List.prefix_nil.mp hbelow)
  have hfiles : (Forge.cleanUp.run s).2.files = s.files.removeBelow (temporaryPath n).parts :=
    files_after_cleanUp (c := {}) howns (by rw [hproject])
  rw [hfiles, Tree.get?_removeBelow hplace, if_pos hbelow]

end HoneypotAudit.Analysis
