import HoneypotAudit.Proofs.Json.RoundTrip
import HoneypotAudit.Proofs.Json.Writing
import HoneypotAudit.Report.Document
import Mathlib.Data.List.Nodup

/-!
# Reading reports back

A report that is written as a document, read as JSON and validated again is the same report
(`reread_eq_some`): its results are in the same order and under the same scenarios, and so all that
is said about it stays true.  For that its document has to be written and read at all: metadata may
not be nested too deep, integers may not be too long, and the duration has to be finite.

Every reader undoes what is written for it (`ofJson_toJson`), and the document is a text that JSON
gives back (`lasts_toJson`).
-/

namespace HoneypotAudit

open HoneypotAudit.Text HoneypotAudit.Number HoneypotAudit.Forge HoneypotAudit.Validation

/-! ## Names -/

lemma Scenario.ofText?_text (s : Scenario) : Scenario.ofText? s.text = some s := by
  cases s <;> decide

lemma Verdict.ofText?_text (v : Verdict) : Verdict.ofText? v.text = some v := by
  cases v <;> decide

lemma ReportStatus.ofText?_text (s : ReportStatus) : ReportStatus.ofText? s.text = some s := by
  cases s <;> decide

lemma Scenario.text_injective : Function.Injective Scenario.text := by
  intro s s' h
  have hname := Scenario.ofText?_text s
  rw [h, Scenario.ofText?_text s'] at hname
  exact (Option.some.inj hname).symm

/-! ## Readers -/

section Readers

variable (path : String)

lemma named_text {α : Type} {ofText? : String → Option α} {name : α → String}
    (h : ∀ x, ofText? (name x) = some x) (x : α) :
    named ofText? path (.str (name x)) = .good x := by
  simp only [named, h]

lemma all_good {α : Type} (xs : List α) : Checked.all (xs.map .good) = .good xs := by
  induction xs with
  | nil => rfl
  | cons x xs ih => rw [List.map_cons, Checked.all, ih, Checked.map, Checked.ap]

/-- What a reader undoes of every item, it undoes of a list. -/
lemma list_map {α : Type} {read : Reader α} {write : α → Json}
    (h : ∀ path x, read path (write x) = .good x) (xs : List α) :
    list read path (.arr (xs.map write)) = .good xs := by
  have hitems (i : Nat) : items read path i (xs.map write) = xs.map .good := by
    induction xs generalizing i with
    | nil => rfl
    | cons x xs ih => rw [List.map_cons, items, h, ih, List.map_cons]
  rw [list, hitems, all_good]

lemma nullable_integer (n : Option Int) :
    nullable integer path ((n.map Json.int).getD .null) = .good n := by
  cases n <;> rfl

lemma readResult_toJson (result : ScenarioResult) :
    readResult path result.toJson = .good result := by
  simp [readResult, ScenarioResult.toJson, required, defaulted, Json.find?, Checked.ap, text,
    named_text _ Scenario.ofText?_text, named_text _ Verdict.ofText?_text]

/-- Results are filed under the scenarios they are written under. -/
lemma readResults_toJson (results : List (Scenario × ScenarioResult)) :
    readResults path (.obj (results.map fun (s, result) => (s.text, result.toJson))) =
      .good results := by
  have hfiled : readFiled path ∘ (fun (s, result) => (s.text, result.toJson)) = .good := by
    funext ⟨s, result⟩
    simp [readFiled, Checked.ap, named_text _ Scenario.ofText?_text, readResult_toJson]
  rw [readResults, List.map_map, hfiled, all_good]

end Readers

namespace Report

variable {r : Report}

/-- **Validation undoes writing.** -/
theorem ofJson_toJson (r : Report) : ofJson r.toJson = .ok r := by
  simp [ofJson, toJson, ofMembers, required, defaulted, Json.find?, Checked.ap, Checked.toExcept,
    named_text _ ReportStatus.ofText?_text, readResults_toJson,
    list_map _ (fun _ _ => rfl : ∀ path s, text path (.str s) = .good s), nullable_integer, text,
    number, members]

/-! ## Documents -/

/-- What becomes of a report that is written, read and validated again. -/
def reread (r : Report) : Option Report := do
  let document ← r.write.toOption
  let v ← (Json.read document.toList).toOption
  (ofJson v).toOption

/-- A report whose document is written and read. -/
structure Lasting (r : Report) : Prop where
  /-- Each scenario has one result. -/
  results : (r.results.map (·.1)).Nodup
  block : ∀ n ∈ r.block, Integer.isWritable n = true
  seconds : r.seconds.IsFinite
  metadata : Json.Lasts (.obj r.metadata)
  depth : Json.depthOfMembers r.metadata < depthLimit

lemma lasts_texts (ss : List String) : Json.Lasts (.arr (ss.map .str)) := by
  rw [Json.Lasts]
  induction ss with
  | nil => simp [Json.ItemsLast]
  | cons s ss ih => simp [Json.ItemsLast, Json.Lasts, ih]

lemma lasts_result (result : ScenarioResult) : Json.Lasts result.toJson := by
  simp [ScenarioResult.toJson, Json.Lasts, Json.MembersLast]

lemma lasts_results {results : List (Scenario × ScenarioResult)}
    (h : (results.map (·.1)).Nodup) :
    Json.Lasts (.obj (results.map fun (s, result) => (s.text, result.toJson))) := by
  rw [Json.Lasts, List.map_map]
  constructor
  · have hkeys := h.map Scenario.text_injective
    rwa [List.map_map] at hkeys
  · clear h
    induction results with
    | nil => simp [Json.MembersLast]
    | cons filed results ih =>
      rw [List.map_cons, Json.MembersLast]
      exact ⟨lasts_result filed.2, ih⟩

/-- What is written of a report lasts. -/
lemma lasts_toJson (h : r.Lasting) : Json.Lasts r.toJson := by
  have hblock : Json.Lasts ((r.block.map Json.int).getD .null) := by
    cases hn : r.block with
    | none => simp [Json.Lasts]
    | some n => simpa [Json.Lasts] using h.block n hn
  have hseconds : Json.Lasts (.float r.seconds) := by
    rw [Json.Lasts]
    exact h.seconds
  rw [toJson, Json.Lasts]
  refine ⟨by simp only [List.map_cons, List.map_nil]; decide, ?_⟩
  simp only [Json.MembersLast, lasts_texts, lasts_results h.results, hblock, hseconds, h.metadata]
  simp [Json.Lasts]

lemma reread_eq (h : Json.depthOfMembers r.metadata < depthLimit) :
    r.reread = (Json.read (Json.indentedOf Json.reportStyle 0 r.toJson)).toOption.bind
      fun v => (ofJson v).toOption := by
  rw [reread, write, if_pos h, document, Json.indented]
  simp only [Except.toOption, Option.bind_eq_bind, Option.bind_some, String.toList_ofList]

/-- **Reports survive JSON**: a report that is written, read and validated again is the same one. -/
theorem reread_eq_some (h : r.Lasting) : r.reread = some r := by
  rw [reread_eq h.depth, Json.read_indentedOf Json.escapesControls_reportStyle (lasts_toJson h)]
  simp only [Except.toOption, Option.bind_some, ofJson_toJson]

/-- A report on two scenarios out of order, one of them filed under another one, with texts of all
kinds and nested metadata. -/
def sampleReport : Report where
  contractName := "Töken \"\\\n\x7f😀"
  status := .tested
  results := [(.hiddenTransfer, ⟨.honeypot, .fail, "src:test/test.sol:T", "a\tb\x01"⟩),
    (.honeypot, ⟨.honeypot, .pass, "", ""⟩)]
  decodedArguments := ["1", ""]
  block := some (-12)
  seconds := .finite false 6946802425218990 (-49)
  metadata :=
    [("a", .arr [.null, .obj [], .arr [.bool true, .int 7]]), ("", .obj [("é", .str "/")])]

lemma reread_sampleReport : sampleReport.Lasting ∧ sampleReport.reread = some sampleReport := by
  have hlasting : sampleReport.Lasting := by
    refine ⟨by decide, ?_, ⟨by decide, by decide, by decide, by decide⟩, ?_, by decide⟩
    · rintro n ⟨⟩
      decide +kernel
    · simp only [sampleReport, Json.Lasts, Json.ItemsLast, Json.MembersLast]
      decide +kernel
  exact ⟨hlasting, reread_eq_some hlasting⟩

/-- Reports that do not survive: their metadata are nested too deep, an integer in them is too long,
or their duration is infinite. -/
theorem reread_none :
    ({ status := .tested, metadata := [("x", Json.nestedLists 299)] } : Report).reread = none ∧
      ({ status := .tested, metadata := [("x", Json.powerOfTen 4300)] } : Report).reread = none ∧
      ({ status := .tested, seconds := .infinite false } : Report).reread = none := by
  refine ⟨?_, ?_, ?_⟩
  · have hdeep : ¬Json.depthOfMembers [("x", Json.nestedLists 299)] < depthLimit := by
      decide +kernel
    simp only [reread, write, if_neg hdeep]
    rfl
  · rw [← Option.isNone_iff_eq_none]
    have hdigits (depth : Nat) : Json.indentedOf Json.reportStyle depth (Json.powerOfTen 4300) =
        '1' :: List.replicate 4300 '0' := by
      have hline := Json.lineOf_powerOfTen Json.reportStyle 4300
      rw [Json.powerOfTen, Json.lineOf] at hline
      rw [Json.powerOfTen, Json.indentedOf, hline]
    have hshallow : Json.depthOfMembers [("x", Json.powerOfTen 4300)] < depthLimit := by
      decide +kernel
    rw [reread_eq hshallow]
    simp only [toJson, Json.indentedOf, Json.indentedMembers, hdigits]
    decide +kernel
  · rw [← Option.isNone_iff_eq_none]
    decide +kernel

end Report

end HoneypotAudit
