import HoneypotAudit.Proofs.Text.Integer
import HoneypotAudit.Proofs.Text.Lines
import HoneypotAudit.Report.Table
import Mathlib.Data.List.Infix

/-!
# Last lines of tables

The text that says that nothing was found (`Report.safeLine`) is printed for a report with results
exactly if the report is safe (`safeLine_mem_iff`), and never for one without (`safeLine_not_mem`).
No other text can be taken for it, as no other one begins in green.

That is about the texts that are printed one by one.  They are the lines of the table if all that is
shown of the report is one line each (`printedLines_table`); a text with line feeds in it can print
any line, but none below the last text of a report with results (`getLast?_printedLines_table`).
-/

namespace HoneypotAudit.Report

open HoneypotAudit.Text HoneypotAudit.Terminal

variable {r : Report} {quiet : Bool} {line : String}

/-! ## Texts that begin otherwise -/

/-- How the texts of a table begin that say nothing about safety. -/
inductive Plain : String → Prop
  | empty : Plain ""
  | bold (text : String) : Plain (bold ++ text ++ reset)
  | indented {line : String} (indent : line.toList.head? = some ' ') : Plain line
  | painted {color : String} (text : String) (other : color ∈ [red, yellow, faint]) :
      Plain (paint color text)

/-- Texts differ if neither of their beginnings goes on with the other one. -/
lemma append_ne_append {a b x y : String} (h : ¬ a.toList <+: b.toList)
    (h' : ¬ b.toList <+: a.toList) : a ++ x ≠ b ++ y := by
  intro heq
  have ha : a.toList <+: (a ++ x).toList := by simp [String.toList_append]
  have hb : b.toList <+: (a ++ x).toList := by simp [heq, String.toList_append]
  exact (List.prefix_or_prefix_of_prefix ha hb).elim h h'

lemma paint_ne_paint {color color' text text' : String} (h : ¬ color.toList <+: color'.toList)
    (h' : ¬ color'.toList <+: color.toList) : paint color text ≠ paint color' text' := by
  rw [paint, paint, String.append_assoc, String.append_assoc]
  exact append_ne_append h h'

lemma Plain.ne_safeLine (h : Plain line) : line ≠ safeLine := by
  cases h with
  | empty => decide
  | bold text => exact paint_ne_paint (by decide) (by decide)
  | indented hindent =>
    rintro rfl
    revert hindent
    decide
  | painted text hcolor =>
    simp only [List.mem_cons, List.not_mem_nil, or_false] at hcolor
    rcases hcolor with rfl | rfl | rfl <;> exact paint_ne_paint (by decide) (by decide)

lemma Plain.append {text : String} (h : text.toList.head? = some ' ') (rest : String) :
    Plain (text ++ rest) :=
  .indented (by rw [String.toList_append, List.head?_append, h]; rfl)

lemma plain_headLines (h : line ∈ r.headLines) : Plain line := by
  simp only [headLines, String.append_assoc, List.mem_append, List.mem_cons, List.not_mem_nil,
    or_false, List.mem_ite_nil_left] at h
  rcases h with (((rfl | rfl | rfl) | ⟨-, rfl⟩) | ⟨-, rfl⟩) | rfl
  · exact .empty
  · rw [← String.append_assoc]
    exact .bold _
  · exact .append rfl _
  · exact .append rfl _
  · exact .append rfl _
  · exact .empty

lemma plain_resultLines {width : Nat} {s : Scenario} {result : Forge.ScenarioResult}
    (h : line ∈ resultLines quiet width s result) : Plain line := by
  simp only [resultLines, String.append_assoc, List.mem_cons, List.mem_ite_nil_right,
    List.not_mem_nil, or_false] at h
  rcases h with rfl | ⟨-, rfl⟩ <;> exact .append rfl _

/-! ## Last texts -/

lemma lastLine_eq_safeLine_iff : r.lastLine = safeLine ↔ r.isSafe = true := by
  rw [lastLine]
  split
  next hsafe => exact iff_of_true rfl hsafe
  next hsafe => exact iff_of_false (paint_ne_paint (by decide) (by decide)) hsafe

/-- The table of a report without results never says that nothing was found, if an error is not
shown in green. -/
lemma safeLine_not_mem (quiet : Bool) (hempty : r.results = [])
    (herror : r.status = .tested → r.error = "") :
    safeLine ∉ r.tableLines quiet := by
  intro hmem
  suffices h : Plain safeLine from h.ne_safeLine rfl
  rw [tableLines, List.mem_append] at hmem
  rcases hmem with hmem | hmem
  · exact plain_headLines ((List.mem_ite_nil_left.mp hmem).2)
  split at hmem
  next hsome =>
    rw [List.mem_singleton.mp hmem]
    cases hstatus : r.status with
    | tested => simp [herror hstatus] at hsome
    | notApplicable => exact .painted _ (by decide)
    | parseFailed => exact .painted _ (by decide)
    | executionFailed => exact .painted _ (by decide)
  next =>
    rw [if_pos (by simp [hempty]), List.mem_singleton] at hmem
    rw [hmem]
    exact .painted _ (by decide)

/-- The texts of a table with results. -/
lemma tableLines_of_results (quiet : Bool) (hsome : r.results ≠ []) (herror : r.error = "") :
    r.tableLines quiet = (if quiet then [] else r.headLines) ++
      r.results.flatMap (fun x => resultLines quiet r.nameWidth x.1 x.2) ++ [""] ++
        [r.lastLine] := by
  simp [tableLines, hsome, herror]

/-- In a table with results that nothing was found is said in the last text, if at all. -/
lemma safeLine_mem_iff (quiet : Bool) (hsome : r.results ≠ []) (herror : r.error = "") :
    safeLine ∈ r.tableLines quiet ↔ r.isSafe = true := by
  refine ⟨fun hmem => ?_, fun hsafe => ?_⟩
  · rw [← lastLine_eq_safeLine_iff]
    rw [tableLines_of_results quiet hsome herror] at hmem
    simp only [List.mem_append, List.mem_flatMap, List.mem_cons, List.not_mem_nil, or_false] at hmem
    rcases hmem with ((hmem | ⟨x, -, hmem⟩) | hmem) | hmem
    · exact absurd rfl (plain_headLines (List.mem_ite_nil_left.mp hmem).2).ne_safeLine
    · exact absurd rfl (plain_resultLines hmem).ne_safeLine
    · exact absurd hmem.symm Plain.empty.ne_safeLine
    · exact hmem.symm
  · rw [← lastLine_eq_safeLine_iff.mpr hsafe, tableLines_of_results quiet hsome herror]
    simp

/-! ## Lines -/

lemma isOneLine_ofList {cs : List Char} : IsOneLine (String.ofList cs) ↔ '\n' ∉ cs := by
  rw [IsOneLine, String.toList_ofList]

lemma isOneLine_paint {color text : String} (hcolor : IsOneLine color) (htext : IsOneLine text) :
    IsOneLine (paint color text) :=
  isOneLine_append.mpr ⟨isOneLine_append.mpr ⟨hcolor, htext⟩, by decide⟩

lemma isOneLine_scenario (s : Scenario) : IsOneLine s.text := by
  cases s <;> decide

/-- A number with so many places is one line. -/
lemma isOneLine_fixed (places : Nat) (x : Number.Binary64) : IsOneLine (Number.fixed places x) := by
  cases x with
  | nan => simp [Number.fixed, IsOneLine]
  | infinite negative => cases negative <;> simp [Number.fixed, IsOneLine]
  | finite negative mantissa exponent =>
    have hdigits (width n : Nat) : '\n' ∉ padLeft width '0' (decimal n) := by
      rw [padLeft, List.mem_append, not_or]
      exact ⟨by simp, fun h => absurd (isAsciiDigit_of_mem_decimal h) (by decide)⟩
    rw [Number.fixed, isOneLine_ofList]
    simp only [Number.fixedFinite]
    generalize hds : padLeft _ _ _ = ds
    have hnone : '\n' ∉ ds := hds ▸ hdigits _ _
    have hwhole (k : Nat) : '\n' ∉ ds.take k := fun hmem => hnone (List.mem_of_mem_take hmem)
    have hplaces (k : Nat) : '\n' ∉ ds.drop k := fun hmem => hnone (List.mem_of_mem_drop hmem)
    cases negative <;> by_cases hzero : places = 0 <;> simp [hzero, hnone, hwhole, hplaces]

/-- The last text of a table is one line. -/
lemma isOneLine_lastLine (r : Report) : IsOneLine r.lastLine := by
  rw [lastLine]
  split
  · decide
  · refine isOneLine_paint (by decide) (isOneLine_append.mpr ⟨by decide, ?_⟩)
    refine isOneLine_intercalate (by decide) fun text htext => ?_
    obtain ⟨s, -, rfl⟩ := List.mem_map.mp htext
    exact isOneLine_scenario s

/-- The texts of a report that its table shows. -/
def shownTexts (r : Report) : List String :=
  [r.contractName, r.error, r.argumentError] ++ r.decodedArguments ++
    r.results.map fun x => x.2.reason

/-- All that is shown of a report is one line each. -/
def IsOneLined (r : Report) : Prop :=
  ∀ text ∈ r.shownTexts, IsOneLine text

lemma isOneLine_headLines (h : r.IsOneLined) {text : String} (hmem : text ∈ r.headLines) :
    IsOneLine text := by
  have hshown {text : String} (hmem : text ∈ r.shownTexts) : IsOneLine text := h text hmem
  have hname : IsOneLine r.contractName := hshown (by simp [shownTexts])
  have herror : IsOneLine r.argumentError := hshown (by simp [shownTexts])
  have harguments : IsOneLine (", ".intercalate r.decodedArguments) :=
    isOneLine_intercalate (by decide) fun text hmem => hshown (by simp [shownTexts, hmem])
  have hblock : IsOneLine r.blockText := by
    rw [blockText]
    split
    · rw [isOneLine_ofList]
      exact fun hmem => absurd (Integer.isNumeralChar_of_mem_signedDecimal hmem) (by decide)
    · decide
  have hstatus : IsOneLine (paint r.status.color r.status.text) := by
    cases r.status <;> decide
  have horElse : IsOneLine (orElse r.contractName "Contract") := by
    rw [orElse]
    split
    · decide
    · exact hname
  simp only [headLines, List.mem_append, List.mem_cons, List.not_mem_nil, or_false,
    List.mem_ite_nil_left] at hmem
  rcases hmem with (((rfl | rfl | rfl) | ⟨-, rfl⟩) | ⟨-, rfl⟩) | rfl
  · decide
  · simp +decide [isOneLine_append, horElse]
  · simp +decide [isOneLine_append, hstatus, hblock, isOneLine_fixed]
  · simp +decide [isOneLine_append, harguments]
  · simp +decide [isOneLine_append, herror]
  · decide

lemma isOneLine_shortReason {reason : String} (h : IsOneLine reason) :
    IsOneLine (shortReason reason) := by
  simp only [shortReason]
  split
  · refine isOneLine_append.mpr ⟨isOneLine_ofList.mpr fun hmem => h ?_, by decide⟩
    exact List.mem_of_mem_take hmem
  · exact h

lemma isOneLine_resultLines {width : Nat} {s : Scenario} {result : Forge.ScenarioResult}
    (h : IsOneLine result.reason) {text : String}
    (hmem : text ∈ resultLines quiet width s result) : IsOneLine text := by
  have hbadge : IsOneLine (paint (result.verdict.color ++ bold)
      (" " ++ result.verdict.badge ++ " ")) := by
    cases result.verdict <;> decide
  have hname : IsOneLine (String.ofList (padRight width ' ' s.text.toList)) := by
    rw [isOneLine_ofList, padRight, List.mem_append, not_or]
    exact ⟨isOneLine_scenario s, by simp⟩
  simp only [resultLines, List.mem_cons, List.mem_ite_nil_right, List.not_mem_nil, or_false] at hmem
  rcases hmem with rfl | ⟨-, rfl⟩
  · simp +decide [isOneLine_append, hbadge, hname]
  · simp +decide [isOneLine_append, isOneLine_shortReason h]

lemma isOneLine_tableLines (h : r.IsOneLined) {text : String} (hmem : text ∈ r.tableLines quiet) :
    IsOneLine text := by
  rw [tableLines, List.mem_append] at hmem
  rcases hmem with hmem | hmem
  · exact isOneLine_headLines h (List.mem_ite_nil_left.mp hmem).2
  split at hmem
  next =>
    have herror : IsOneLine r.error := h _ (by simp [shownTexts])
    rw [List.mem_singleton.mp hmem]
    refine isOneLine_paint ?_ (isOneLine_append.mpr ⟨by decide, herror⟩)
    cases r.status <;> decide
  split at hmem
  next =>
    rw [List.mem_singleton.mp hmem]
    decide
  next =>
    simp only [List.mem_append, List.mem_flatMap, List.mem_cons, List.not_mem_nil, or_false] at hmem
    rcases hmem with ⟨x, hx, hmem⟩ | rfl | rfl
    · have hreason : x.2.reason ∈ r.shownTexts :=
        List.mem_append_right _ (List.mem_map.mpr ⟨x, hx, rfl⟩)
      exact isOneLine_resultLines (h _ hreason) hmem
    · decide
    · exact isOneLine_lastLine r

/-- The lines of a table of which every text is one line are these texts. -/
lemma printedLines_table (h : r.IsOneLined) (quiet : Bool) :
    printedLines (r.table quiet).toList = (r.tableLines quiet).map (·.toList) :=
  printedLines_of_isOneLine fun _ => isOneLine_tableLines h

/-- The last line of the table of a report with results, whatever its texts are. -/
lemma getLast?_printedLines_table (quiet : Bool) (hsome : r.results ≠ []) (herror : r.error = "") :
    (printedLines (r.table quiet).toList).getLast? = some r.lastLine.toList := by
  rw [table, tableLines_of_results quiet hsome herror]
  exact getLast?_printedLines (isOneLine_lastLine r)

end HoneypotAudit.Report
