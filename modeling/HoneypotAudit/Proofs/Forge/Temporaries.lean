import HoneypotAudit.Proofs.Forge.Projects

/-!
# Temporary directories

Without a fixed directory every new project gets a temporary one, which cleaning up removes.  A
temporary directory is abandoned if it is there and is not that of the current project: nothing will
remove it.  `Owns` is what every operation keeps, and `abandoned_after_iff` says which operation
abandons a directory: making a project while there is one.

The main statement is `cleanUp_removes_temporaries_iff`.
-/

namespace HoneypotAudit.Forge

open HoneypotAudit.Files HoneypotAudit.Session

/-! ## Names of temporary directories -/

/-- The name of a temporary directory. -/
def temporaryName (n : Nat) : String :=
  "honeyprobe_forge_" ++ toString n

lemma parts_temporaryPath (n : Nat) : (temporaryPath n).parts = ["tmp"] ++ [temporaryName n] :=
  rfl

lemma temporaryName_injective : Function.Injective temporaryName := by
  intro m n h
  have hrepr : m.repr = n.repr := (String.append_right_inj _).mp h
  have hdigits : Nat.toDigits 10 m = Nat.toDigits 10 n := by
    rw [← Nat.toList_repr, ← Nat.toList_repr, hrepr]
  calc
    m = Nat.ofDigitChars 10 (Nat.toDigits 10 m) 0 := Nat.ofDigitChars_ten_toDigits.symm
    _ = Nat.ofDigitChars 10 (Nat.toDigits 10 n) 0 := by rw [hdigits]
    _ = n := Nat.ofDigitChars_ten_toDigits

lemma parts_temporaryPath_inj {m n : Nat} :
    (temporaryPath m).parts = (temporaryPath n).parts ↔ m = n := by
  refine ⟨fun h => temporaryName_injective ?_, fun h => h ▸ rfl⟩
  rw [parts_temporaryPath, parts_temporaryPath] at h
  exact List.singleton_injective (List.append_cancel_left h)

lemma temporaryPath_inj {m n : Nat} : temporaryPath m = temporaryPath n ↔ m = n :=
  ⟨fun h => parts_temporaryPath_inj.mp (congrArg Path.parts h), fun h => h ▸ rfl⟩

/-- The other names in a project begin with other letters. -/
lemma temporaryName_ne {n : Nat} {name : String} (h : name.toList.head? ≠ some 'h') :
    temporaryName n ≠ name := by
  rintro rfl
  have hlist : (temporaryName n).toList = "honeyprobe_forge_".toList ++ (toString n).toList :=
    String.toList_append
  rw [hlist] at h
  exact h rfl

/-! ## Directories that are left -/

/-- A temporary directory is there. -/
def Remains (s : Session) (n : Nat) : Prop :=
  (s.files.get? (temporaryPath n).parts).isSome

/-- Some temporary directory, among those made since the first one of some test runs, is there
without being that of the current project. -/
def Abandoned (first : Nat) (s : Session) : Prop :=
  ∃ n, first ≤ n ∧ n < s.temporaries ∧ Remains s n ∧ s.project.directory ≠ some (temporaryPath n)

/-- The project is in the temporary directory that was made for it, which is there. -/
structure Owns (first : Nat) (s : Session) : Prop where
  root : s.files.get? temporaryRoot.parts = some .directory
  first_le : first ≤ s.temporaries
  current : ∀ d ∈ s.project.directory, s.project.isTemporary = true ∧
    ∃ n, first ≤ n ∧ n < s.temporaries ∧ d = temporaryPath n ∧
      s.files.get? (temporaryPath n).parts = some .directory

variable {c : Config} {first : Nat} {s s' : Session}

/-! ## Making a project -/

lemma remains_opened (htemporary : c.fixedDirectory? = none) {n : Nat} :
    Remains (opened c s) n ↔ n = s.temporaries ∨ Remains s n := by
  rw [Remains, Remains, opened_of_temporary htemporary]
  by_cases hn : n = s.temporaries
  · subst hn
    simp [Tree.get?_put_self, parts_temporaryPath]
  · have hplace : (temporaryPath n).parts ≠ (temporaryPath s.temporaries).parts :=
      fun h => hn (parts_temporaryPath_inj.mp h)
    simp [Tree.get?_put_of_ne hplace, hn]

lemma Owns.opened (htemporary : c.fixedDirectory? = none) (h : Owns first s) :
    Owns first (opened c s) := by
  rw [opened_of_temporary htemporary]
  refine ⟨?_, Nat.le_succ_of_le h.first_le, fun d hd => ⟨rfl, s.temporaries, h.first_le,
    Nat.lt_succ_self _, (Option.some.inj hd).symm,
    Tree.get?_put_self (by simp [parts_temporaryPath])⟩⟩
  rw [Tree.get?_put_of_ne (by simp [parts_temporaryPath, temporaryRoot, Path.absolute])]
  exact h.root

/-- A new project abandons the directory of the one before. -/
lemma abandoned_opened_iff (htemporary : c.fixedDirectory? = none) (h : Owns first s) :
    Abandoned first (opened c s) ↔ Abandoned first s ∨ s.project.directory.isSome := by
  have hproject : (opened c s).project.directory = some (temporaryPath s.temporaries) := by
    rw [opened_of_temporary htemporary]
  have hcount : (opened c s).temporaries = s.temporaries + 1 := by
    rw [opened_of_temporary htemporary]
  constructor
  · rintro ⟨n, hfirst, hlt, hremains, hother⟩
    rw [hproject, Ne, Option.some_inj, temporaryPath_inj] at hother
    have hold := ((remains_opened htemporary).mp hremains).resolve_left (Ne.symm hother)
    by_cases hcurrent : s.project.directory = some (temporaryPath n)
    · exact .inr (by rw [hcurrent]; rfl)
    · exact .inl ⟨n, hfirst, by omega, hold, hcurrent⟩
  · rintro (⟨n, hfirst, hlt, hremains, -⟩ | hsome)
    · refine ⟨n, hfirst, by omega, (remains_opened htemporary).mpr (.inr hremains), ?_⟩
      rw [hproject, Ne, Option.some_inj, temporaryPath_inj]
      omega
    · obtain ⟨d, hd⟩ := Option.isSome_iff_exists.mp hsome
      obtain ⟨-, n, hfirst, hlt, -, hentry⟩ := h.current d hd
      have hremains : Remains s n := by rw [Remains, hentry]; rfl
      refine ⟨n, hfirst, by omega, (remains_opened htemporary).mpr (.inr hremains), ?_⟩
      rw [hproject, Ne, Option.some_inj, temporaryPath_inj]
      omega

/-! ## Working in a project -/

/-- Work in the current project makes no temporary directory and removes none. -/
lemma remains_of_works (hfresh : ∀ n, temporaryName n ∉ (Path.ofText c.testFile).parts)
    (h : Owns first s) (hworks : Works c s.project.directory s s') {n : Nat} :
    Remains s' n ↔ Remains s n := by
  constructor
  · intro hremains
    by_contra hnone
    rw [Remains, Option.not_isSome_iff_eq_none] at hnone
    obtain ⟨d, hd, hname⟩ := hworks.files.new hnone (Option.isSome_iff_ne_none.mp hremains)
    obtain ⟨-, m, -, -, rfl, hentry⟩ := h.current d hd
    rcases hname with hname | hname | hname
    · rw [parts_temporaryPath] at hname
      simp only [List.mem_append, List.mem_singleton] at hname
      rcases hname with hname | hname
      · exact temporaryName_ne (by decide) hname
      · rw [temporaryName_injective hname, hentry] at hnone
        cases hnone
    · simp only [List.mem_cons, List.not_mem_nil, or_false] at hname
      rcases hname with hname | hname | hname | hname <;> exact temporaryName_ne (by decide) hname
    · exact hfresh n hname
  · intro hremains
    obtain ⟨e, he⟩ := Option.isSome_iff_exists.mp hremains
    exact hworks.files.isSome_get? he

lemma Owns.works (h : Owns first s) (hworks : Works c s.project.directory s s') :
    Owns first s' where
  root := hworks.files.directory h.root
  first_le := hworks.temporaries ▸ h.first_le
  current d hd := by
    rw [hworks.project] at hd
    obtain ⟨htemporary, n, hfirst, hlt, hpath, hentry⟩ := h.current d hd
    exact ⟨hworks.project ▸ htemporary, n, hfirst, hworks.temporaries ▸ hlt, hpath,
      hworks.files.directory hentry⟩

lemma abandoned_of_works (hfresh : ∀ n, temporaryName n ∉ (Path.ofText c.testFile).parts)
    (h : Owns first s) (hworks : Works c s.project.directory s s') :
    Abandoned first s' ↔ Abandoned first s := by
  simp only [Abandoned, remains_of_works hfresh h hworks, hworks.temporaries, hworks.project]

/-! ## Cleaning up -/

/-- Cleaning up in a temporary directory removes it. -/
lemma files_after_cleanUp (h : Owns first s) {n : Nat}
    (hn : s.project.directory = some (temporaryPath n)) :
    (Operation.cleanUp.after c s).files = s.files.removeBelow (temporaryPath n).parts := by
  obtain ⟨htemporary, m, -, -, hpath, hentry⟩ := h.current _ hn
  obtain rfl := temporaryPath_inj.mp hpath
  have hup : temporaryName n ≠ ".." := temporaryName_ne (by decide)
  have hpresent : s.files.hasPath s.workingDirectory (temporaryPath n) = true := by
    have hwalk : s.files.walk [] ["tmp"] = .ok ["tmp"] :=
      Tree.walk_cons_eq_ok_iff.mpr ⟨.inr h.root, rfl⟩
    rw [Tree.hasPath, Tree.find_of_walk rfl hup hwalk hentry]
  have hplace : (temporaryPath n).resolve s.workingDirectory = (temporaryPath n).parts := by
    refine Location.follow_of_not_mem ?_
    simpa [parts_temporaryPath] using hup.symm
  obtain ⟨records, hafter⟩ := after_cleanUp c s
  rw [hafter]
  simp only [hn, htemporary, hpresent, and_self, if_true, hplace]

/-- Without a project cleaning up changes no file. -/
lemma files_after_cleanUp_of_none (hnone : s.project.directory = none) :
    (Operation.cleanUp.after c s).files = s.files := by
  obtain ⟨records, hafter⟩ := after_cleanUp c s
  rw [hafter, hnone]

/-- Of the temporary directories the one of the project goes. -/
lemma remains_after_cleanUp (h : Owns first s) {n : Nat} :
    Remains (Operation.cleanUp.after c s) n ↔
      Remains s n ∧ s.project.directory ≠ some (temporaryPath n) := by
  have hplace : (temporaryPath n).parts ≠ [] := List.cons_ne_nil _ _
  cases hd : s.project.directory with
  | none =>
    rw [Remains, files_after_cleanUp_of_none hd]
    simp [Remains]
  | some d =>
    obtain ⟨-, m, -, -, rfl, -⟩ := h.current d hd
    rw [Remains, files_after_cleanUp h hd, Tree.get?_removeBelow hplace, Ne, Option.some_inj,
      temporaryPath_inj]
    by_cases hsame : m = n
    · simp [hsame]
    · have hother : ¬ (temporaryPath m).parts <+: (temporaryPath n).parts :=
        fun hbelow => hsame (parts_temporaryPath_inj.mp (hbelow.eq_of_length rfl))
      simp [hsame, hother, Remains]

lemma Owns.cleanUp (h : Owns first s) : Owns first (Operation.cleanUp.after c s) := by
  obtain ⟨records, hafter⟩ := after_cleanUp c s
  refine ⟨?_, ?_, ?_⟩
  · cases hd : s.project.directory with
    | none =>
      rw [files_after_cleanUp_of_none hd]
      exact h.root
    | some d =>
      obtain ⟨-, n, -, -, rfl, -⟩ := h.current d hd
      have habove : ¬ (temporaryPath n).parts <+: temporaryRoot.parts :=
        fun hbelow => absurd hbelow.length_le (by simp [parts_temporaryPath, temporaryRoot,
          Path.absolute])
      have hroot : temporaryRoot.parts ≠ [] := List.cons_ne_nil _ _
      rw [files_after_cleanUp h hd, Tree.get?_removeBelow hroot, if_neg habove]
      exact h.root
  · rw [hafter]
    exact h.first_le
  · rw [hafter]
    exact fun d hd => nomatch hd

/-- Cleaning up abandons nothing. -/
lemma abandoned_after_cleanUp (h : Owns first s) :
    Abandoned first (Operation.cleanUp.after c s) ↔ Abandoned first s := by
  obtain ⟨records, hafter⟩ := after_cleanUp c s
  have hproject : (Operation.cleanUp.after c s).project.directory = none := by rw [hafter]
  have hcount : (Operation.cleanUp.after c s).temporaries = s.temporaries := by rw [hafter]
  simp [Abandoned, remains_after_cleanUp h, hproject, hcount]

/-! ## Operations -/

/-- A project that is made while there is one abandons its directory, and nothing else abandons
one. -/
lemma abandoned_after_iff (htemporary : c.fixedDirectory? = none)
    (hfresh : ∀ n, temporaryName n ∉ (Path.ofText c.testFile).parts) (h : Owns first s)
    (op : Operation) :
    Owns first (op.after c s) ∧ (Abandoned first (op.after c s) ↔
      Abandoned first s ∨ op = .start ∧ s.project.directory.isSome) := by
  by_cases hclean : op = .cleanUp
  · subst hclean
    exact ⟨h.cleanUp, by simp [abandoned_after_cleanUp h]⟩
  have hworks := works_after (c := c) hclean s
  by_cases hopens : op.opens s = true
  · rw [Operation.within, if_pos hopens] at hworks
    have hopened := h.opened htemporary
    refine ⟨hopened.works hworks, ?_⟩
    rw [abandoned_of_works hfresh hopened hworks, abandoned_opened_iff htemporary h]
    cases op <;> simp_all [Operation.opens]
  · rw [Operation.within, if_neg hopens] at hworks
    refine ⟨h.works hworks, ?_⟩
    rw [abandoned_of_works hfresh h hworks]
    cases op <;> simp_all [Operation.opens]

/-- In the course of some operations a project is made while there is one. -/
def Overlaps (c : Config) (ops : List Operation) (s : Session) : Prop :=
  ∃ before after, ops = before ++ .start :: after ∧
    (performAll c before s).project.directory.isSome

lemma overlaps_cons_iff {op : Operation} {ops : List Operation} :
    Overlaps c (op :: ops) s ↔
      op = .start ∧ s.project.directory.isSome ∨ Overlaps c ops (op.after c s) := by
  constructor
  · rintro ⟨before, after, hsplit, hsome⟩
    cases before with
    | nil => exact .inl ⟨(List.cons.inj hsplit).1, hsome⟩
    | cons _ before =>
      obtain ⟨rfl, hrest⟩ := List.cons.inj hsplit
      exact .inr ⟨before, after, hrest, hsome⟩
  · rintro (⟨rfl, hsome⟩ | ⟨before, after, rfl, hsome⟩)
    · exact ⟨[], ops, rfl, hsome⟩
    · exact ⟨op :: before, after, rfl, hsome⟩

/-- Directories are abandoned exactly by projects that are made while there is one. -/
lemma abandoned_performAll_iff (htemporary : c.fixedDirectory? = none)
    (hfresh : ∀ n, temporaryName n ∉ (Path.ofText c.testFile).parts) (h : Owns first s)
    (ops : List Operation) :
    Owns first (performAll c ops s) ∧
      (Abandoned first (performAll c ops s) ↔ Abandoned first s ∨ Overlaps c ops s) := by
  induction ops generalizing s with
  | nil => exact ⟨h, by simp [performAll, Overlaps]⟩
  | cons op ops ih =>
    obtain ⟨howns, hstep⟩ := abandoned_after_iff htemporary hfresh h op
    obtain ⟨howns', hrest⟩ := ih howns
    refine ⟨howns', hrest.trans ?_⟩
    rw [hstep, overlaps_cons_iff, or_assoc]

/-- **Cleaning up leaves no temporary directory behind, unless a project was made while there was
one.**  Let there be no fixed directory, and let the names of temporary directories be new ones.
After any operations, whatever their calls of the tool came to, and a last cleaning up there is no
project; and none of the temporary directories made since the start is there any more exactly if
projects were made only when there was none. -/
theorem cleanUp_removes_temporaries_iff {c : Config} {s₀ : Session}
    (htemporary : c.fixedDirectory? = none)
    (hfresh : ∀ n, temporaryName n ∉ (Path.ofText c.testFile).parts)
    (hroot : s₀.files.isDirectory temporaryRoot.parts) (h₀ : s₀.project.directory = none)
    (ops : List Operation) :
    let s := performAll c (ops ++ [.cleanUp]) s₀
    s.project.directory = none ∧
      ((∀ n, s₀.temporaries ≤ n → n < s.temporaries →
          s.files.get? (temporaryPath n).parts = none) ↔
        ∀ before after, ops = before ++ .start :: after →
          (performAll c before s₀).project.directory = none) := by
  intro s
  have hnew : Owns s₀.temporaries s₀ :=
    ⟨of_decide_eq_true hroot, le_refl _, by rw [h₀]; exact fun d hd => nomatch hd⟩
  have hnone : ¬ Abandoned s₀.temporaries s₀ := by
    rintro ⟨n, hfirst, hlt, -⟩
    omega
  have hlast : s.project.directory = none := by
    obtain ⟨records, hafter⟩ := after_cleanUp c (performAll c ops s₀)
    rw [show s = _ from performAll_concat c ops .cleanUp s₀, hafter]
  have habandoned : Abandoned s₀.temporaries s ↔ Overlaps c ops s₀ := by
    obtain ⟨howns, hrun⟩ := abandoned_performAll_iff htemporary hfresh hnew ops
    rw [show s = _ from performAll_concat c ops .cleanUp s₀, abandoned_after_cleanUp howns, hrun,
      or_iff_right hnone]
  refine ⟨hlast, ?_⟩
  have hleft : (∀ n, s₀.temporaries ≤ n → n < s.temporaries →
      s.files.get? (temporaryPath n).parts = none) ↔ ¬ Abandoned s₀.temporaries s := by
    simp [Abandoned, hlast, Remains]
  rw [hleft, habandoned]
  simp [Overlaps]

/-- New test runs with a place for temporary directories; the library cannot be fetched at first. -/
def firstSession : Session :=
  { rooms := .same 8
    forge := { installing := [.finished 1 none "no network"] }
    files := ⟨[(["tmp"], .directory)]⟩ }

/-- The usual file of the suites is in no temporary directory. -/
lemma temporaryName_not_mem_testFile (n : Nat) :
    temporaryName n ∉ (Path.ofText ({} : Config).testFile).parts := by
  have hparts : (Path.ofText ({} : Config).testFile).parts = ["test", "test.sol"] := by
    decide +kernel
  rw [hparts]
  simp only [List.mem_cons, List.not_mem_nil, or_false]
  rintro (h | h) <;> exact temporaryName_ne (by decide) h

/-- A run that cannot fetch the library, and a second project after the first one is cleaned up. -/
def failedRun : List Operation :=
  [.run { code := "", scenarios := [] }, .cleanUp, .start]

theorem cleanUp_removes_temporaries_failedRun :
    ({} : Config).fixedDirectory? = none ∧
      (∀ n, temporaryName n ∉ (Path.ofText ({} : Config).testFile).parts) ∧
      firstSession.files.isDirectory temporaryRoot.parts ∧
      firstSession.project.directory = none ∧
      (performAll {} (failedRun ++ [.cleanUp]) firstSession).project.directory = none ∧
      (performAll {} (failedRun ++ [.cleanUp]) firstSession).temporaries = 2 ∧
      ∀ n, n < 2 → (performAll {} (failedRun ++ [.cleanUp]) firstSession).files.get?
        (temporaryPath n).parts = none := by
  have hroot : firstSession.files.isDirectory temporaryRoot.parts := by decide
  have hcount : (performAll {} (failedRun ++ [.cleanUp]) firstSession).temporaries = 2 := by
    decide +kernel
  obtain ⟨hnone, hgone⟩ := @cleanUp_removes_temporaries_iff {} firstSession rfl
    temporaryName_not_mem_testFile hroot rfl failedRun
  refine ⟨rfl, temporaryName_not_mem_testFile, hroot, rfl, hnone, hcount, fun n hn => ?_⟩
  rw [← hcount] at hn
  refine hgone.mpr (fun before after hsplit => ?_) n (Nat.zero_le n) hn
  -- the only project that is made by itself is made after the first one was cleaned up
  have hbefore : before = [.run { code := "", scenarios := [] }, .cleanUp] := by
    rw [failedRun] at hsplit
    rcases before with _ | ⟨_, _ | ⟨_, _ | ⟨_, _ | _⟩⟩⟩ <;> simp_all
  rw [hbefore]
  decide +kernel

/-- A second project abandons the directory of the first one, which cleaning up leaves behind. -/
theorem second_project_leaves_first :
    let s := performAll {} [.start, .start, .cleanUp] firstSession
    s.project.directory = none ∧ s.temporaries = 2 ∧
      s.files.get? (temporaryPath 0).parts = some .directory := by
  decide +kernel

end HoneypotAudit.Forge
