import HoneypotAudit.Proofs.Analysis.Reports

/-!
# Chain state of test runs

The tests of an analysis run on the chain state that its report names.  `chainState?` reads off the
words of a call which node and which block the tool is told to fork, and `chainState_of_tested` says
that these are the node of the analysis and the block of the report.  Without a node nothing is
forked, and then the block of the report is only the one that was asked for
(`block_without_chainState`).
-/

namespace HoneypotAudit.Analysis

open HoneypotAudit.Session HoneypotAudit.Steps HoneypotAudit.Text

variable {a : Analyzer} {t : Task} {s s' : Session}

/-! ## The options of a call -/

/-- The options among the words of a test run, with their values: one says how the results are
printed, each of the others takes the word behind it. -/
def options? : List String → Option (List (String × String))
  | [] => some []
  | [word] => if word = "--json" then some [] else none
  | word :: value :: rest =>
    if word = "--json" then options? (value :: rest)
    else if word ∈ ["--match-path", "--fork-url", "--fork-block-number"] then
      (options? rest).map ((word, value) :: ·)
    else none

/-- The node and the block that a test run is told to fork. -/
def chainState? (call : Forge.Call) : Option (Option String × Option String) :=
  match call.words with
  | _ :: "test" :: rest =>
    (options? rest).map fun options =>
      (options.lookup "--fork-url", options.lookup "--fork-block-number")
  | _ => none

lemma chainState?_of_words {call : Forge.Call} {c : Forge.Config} {url : String}
    {block : Option Forge.Block} (h : call.words = c.testWords url block) :
    chainState? call = some (if url = "" then (none, none)
      else (some url, block.map Forge.Block.text)) := by
  rw [chainState?, h, Forge.Config.testWords]
  unfold Forge.forkWords
  by_cases hurl : url = ""
  · simp [hurl, options?, List.lookup_cons]
  · cases block <;> simp [hurl, options?, List.lookup_cons]

/-! ## The calls of an analysis -/

/-- A call that runs the tests has the words for the node and the block of an analysis. -/
def TestsFor (a : Analyzer) (t : Task) (call : Forge.Call) : Prop :=
  call.command = .test → call.words = a.execution.testWords (a.urlFor t) (a.blockFor t)

lemma calls_analyze : Calls (TestsFor a t) (analyze a t).run := by
  refine moves_analyze (fun _ _ => Idles.makesOnly) ?_ fun p => ?_
  · refine (calls_prepare _ _ _).mono ?_
    rintro call rfl htest
    cases htest
  · refine Forge.calls_run_of (fun call hinstall htest => ?_) fun directory _ => rfl
    cases hinstall.symm.trans htest

/-! ## Reports and chain state -/

/-- **A report names the block whose state the tests ran on.**  If the contract was tested, the tool
was called to run the tests.  With a node, every such call was told to fork that node at the block
of the report, and at no block if the report names none; without a node it was told to fork
nothing. -/
theorem chainState_of_tested {r : Report} (h : Ends (analyze a t) s (.ok r) s')
    (htested : r.status = .tested) :
    ∃ calls, Makes calls s s' ∧ (∃ call ∈ calls, call.command = .test) ∧
      ∀ call ∈ calls, call.command = .test →
        (a.urlFor t ≠ "" → chainState? call =
          some (some (a.urlFor t), r.block.map fun n => (Forge.Block.number n).text)) ∧
        (a.urlFor t = "" → chainState? call = some (none, none)) ∧
        (r.block = none → ∃ url, chainState? call = some (url, none)) := by
  obtain ⟨calls, hcalls, hanalyzed⟩ := ends_analyze_ok h
  obtain ⟨facts, before, call, output, run, -, -, hlast, htest, -⟩ := hanalyzed.of_tested htested
  have hwords := hcalls.of_only (calls_analyze.makesOnly h)
  have hblock := (gives_analyze a t h).block
  refine ⟨calls, hcalls, ⟨call, by simp [hlast], htest⟩, fun call hcall htest => ?_⟩
  have hstate := chainState?_of_words (hwords call hcall htest)
  rw [hblock, Option.map_map] at hstate
  refine ⟨fun hurl => ?_, fun hurl => ?_, fun hnone => ?_⟩
  · rw [hstate, if_neg hurl]
    rfl
  · rw [hstate, if_pos hurl]
  · rw [hstate, hnone]
    split
    · exact ⟨none, rfl⟩
    · exact ⟨_, rfl⟩

/-- The contract with an owner, at a block. -/
def blockTask (url : Option String) (n : Int) : Task :=
  { ownedTask with forkUrl := url, block := some (.number n) }

/-- The report of that contract, and the calls that were made for it. -/
lemma exists_block_report (url : Option String) (hurl : url = none ∨ url = some "http://node") :
    ∃ r s', Ends (analyze {} (blockTask url 7)) ownedSession (.ok r) s' ∧ r.status = .tested ∧
      r.block = some 7 := by
  have hrun : (match ((analyze {} (blockTask url 7)).run.run ownedSession).1 with
      | .ok r => r.isTested && r.block = some 7
      | .error _ => false) = true := by
    rcases hurl with rfl | rfl <;> decide +kernel
  split at hrun
  next r hr =>
    obtain ⟨htested, hblock⟩ := Bool.and_eq_true_iff.mp hrun
    exact ⟨r, _, Prod.ext hr rfl, of_decide_eq_true htested, of_decide_eq_true hblock⟩
  next => cases hrun

theorem chainState_of_tested_block :
    ∃ r s' calls, Ends (analyze {} (blockTask (some "http://node") 7)) ownedSession (.ok r) s' ∧
      Makes calls ownedSession s' ∧ ∃ call ∈ calls, call.command = .test ∧
        chainState? call = some (some "http://node", some "7") := by
  obtain ⟨r, s', hends, htested, hblock⟩ := exists_block_report (some "http://node") (.inr rfl)
  obtain ⟨calls, hcalls, ⟨call, hcall, htest⟩, hall⟩ := chainState_of_tested hends htested
  refine ⟨r, s', calls, hends, hcalls, call, hcall, htest, ?_⟩
  rw [(hall call hcall htest).1 (by decide), hblock]
  decide +kernel

/-- A report that names a block although nothing was forked: the task asks for a block but names no
node, and the analyzer has none either. -/
theorem block_without_chainState :
    ¬∀ (a : Analyzer) (t : Task) (s s' : Session) (r : Report) (n : Int)
      (calls : List Forge.Call), Ends (analyze a t) s (.ok r) s' → r.status = .tested →
      r.block = some n → Makes calls s s' → ∀ call ∈ calls, call.command = .test →
        chainState? call = some (some (a.urlFor t), some (Forge.Block.number n).text) := by
  intro hall
  obtain ⟨r, s', hends, htested, hblock⟩ := exists_block_report none (.inl rfl)
  obtain ⟨calls, hcalls, hanalyzed⟩ := ends_analyze_ok hends
  obtain ⟨facts, before, call, output, run, -, -, hlast, htest, -⟩ := hanalyzed.of_tested htested
  have hcall : call ∈ calls := by simp [hlast]
  have hclaimed := hall _ _ _ _ _ _ _ hends htested hblock hcalls call hcall htest
  have hwords := hcalls.of_only (calls_analyze.makesOnly hends) call hcall htest
  rw [chainState?_of_words hwords] at hclaimed
  revert hclaimed
  decide

end HoneypotAudit.Analysis
