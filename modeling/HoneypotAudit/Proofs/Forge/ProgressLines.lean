import HoneypotAudit.Proofs.Forge.Shape
import HoneypotAudit.Proofs.Json.Reading
import HoneypotAudit.Proofs.Text.Lines

/-!
# Progress lines in front of a report

A test run may print progress lines before its report, which stands on one line.  The output as a
whole is no JSON then, and the last line that is an object counts.

Lines are cut at all line breaks of Unicode, and three of them may stand raw in the texts of JSON.
`findReport_behind_progress_iff` says that a report without these three is found behind any progress
lines, if the output as a whole is not beyond what is read of JSON.  With one of the three in it, it
may be missed (`report_with_separator_missed`).
-/

namespace HoneypotAudit.Forge

open HoneypotAudit.Json HoneypotAudit.Text

/-! ## The report -/

/-- Progress lines, each ended by a line feed, and a report behind them. -/
def withProgress (progress : List (List Char)) (report ending : List Char) : List Char :=
  progress.flatMap (· ++ ['\n']) ++ (report ++ ending)

/-- A report of one line for which there is room: an object in front of nothing but a line feed. -/
structure IsReportLine (room : Nat) (report ending : List Char) (members : Members) :
    Prop where
  read : readReport room report = .ok (.obj members)
  brace : report.head? = some '{'
  noFeed : '\n' ∉ report
  noReturn : '\r' ∉ report
  ending : ending = [] ∨ ending = ['\n']

section ReportLine

variable {room : Nat} {report ending : List Char} {members : Members}
  {progress : List (List Char)}

lemma exists_progress_end (h : progress ≠ []) :
    ∃ front, progress.flatMap (· ++ ['\n']) = front ++ ['\n'] := by
  obtain ⟨lines, line, rfl⟩ := List.eq_nil_or_concat progress |>.resolve_left h
  exact ⟨lines.flatMap (· ++ ['\n']) ++ line, by simp⟩

/-- The report has no line break in it but separators. -/
lemma IsReportLine.unbroken (h : IsReportLine room report ending members)
    (hseparators : ∀ c ∈ separators, c ∉ report) : ∀ c ∈ report, isLineBreak c = false := by
  intro c hc
  by_contra hbreak
  have hbreak : isLineBreak c = true := by simpa using hbreak
  rcases isLineBreak_cases hbreak with hlow | hseparator
  · have hgap := isGap_of_mem h.read hc hlow
    simp only [isGap, Bool.or_eq_true, beq_iff_eq] at hgap
    rcases hgap with ((rfl | rfl) | rfl) | rfl
    · exact absurd hlow (by decide)
    · exact absurd hbreak (by decide)
    · exact h.noFeed hc
    · exact h.noReturn hc
  · exact hseparators c hseparator hc

lemma IsReportLine.ne_nil (h : IsReportLine room report ending members) : report ≠ [] := by
  rintro rfl
  cases h.brace

/-- The last line of the output is the report. -/
lemma IsReportLine.exists_lines (h : IsReportLine room report ending members)
    (progress : List (List Char)) (hseparators : ∀ c ∈ separators, c ∉ report) :
    ∃ before, lines (withProgress progress report ending) = before ++ [report] := by
  have hlast := lines_of_unbroken h.ne_nil (h.unbroken hseparators) h.ending
  by_cases hprogress : progress = []
  · exact ⟨[], by rw [hprogress]; exact hlast⟩
  · obtain ⟨front, hfront⟩ := exists_progress_end hprogress
    obtain ⟨line, before, hlines⟩ := exists_lines_append front (report ++ ending)
    rw [hlast] at hlines
    exact ⟨line :: before, by rw [withProgress, hfront, List.append_assoc]; exact hlines⟩

lemma IsReportLine.skipGap_eq (h : IsReportLine room report ending members) (behind : List Char) :
    skipGap (report ++ behind) = report ++ behind := by
  obtain ⟨c, body, rfl⟩ := List.exists_cons_of_ne_nil h.ne_nil
  obtain rfl : c = '{' := Option.some.inj h.brace
  exact List.dropWhile_cons_of_neg (by decide)

lemma IsReportLine.isTail (h : IsReportLine room report ending members) : IsTail ending := by
  rcases h.ending with rfl | rfl
  · exact nofun
  · intro c hc
    cases hc
    decide

/-- The report and its ending are read as the report, whatever fuel and room there is. -/
lemma IsReportLine.readValue_eq (h : IsReportLine room report ending members) {fuel left : Nat}
    {rest : List Char} {v : Json}
    (hread : readValue keptName fuel left (report ++ ending) = .ok (v, rest)) :
    v = .obj members ∧ skipGap rest = [] := by
  obtain ⟨behind, hreport, hbehind⟩ := readWithin_eq_ok_iff.mp h.read
  have hskip := h.skipGap_eq []
  rw [List.append_nil] at hskip
  rw [hskip] at hreport
  obtain ⟨hv, rfl⟩ := readValue_unique h.isTail hreport hread
  refine ⟨hv, ?_⟩
  rw [skipGap, List.dropWhile_append, ← skipGap, hbehind]
  rcases h.ending with rfl | rfl
  · rfl
  · rfl

/-- No list and no object goes on in the report. -/
lemma IsReportLine.stops (h : IsReportLine room report ending members) :
    Stops keptName ('\n' :: (report ++ ending)) := by
  have hskip : skipGap ('\n' :: (report ++ ending)) = report ++ ending :=
    (List.dropWhile_cons_of_pos (by decide)).trans (h.skipGap_eq ending)
  refine ⟨fun c hc => ?_, fun c hc body hcons => ?_, fun hread => ?_⟩
  · cases hc
    decide
  · have hhead : (report ++ ending).head? = some '{' := by
      rw [List.head?_append, h.brace, Option.some_or]
    rw [← hskip, hcons] at hhead
    cases hhead
    exact absurd hc (by decide)
  · rw [hskip] at hread
    exact (h.readValue_eq hread).2

/-- The output as a whole is read as nothing but the report. -/
lemma IsReportLine.eq_of_readReport (h : IsReportLine room report ending members) {v : Json}
    (hread : readReport room (withProgress progress report ending) = .ok v) : v = .obj members := by
  have hskip : skipGap (withProgress progress report ending) = report ++ ending := by
    by_cases hprogress : progress = []
    · rw [hprogress]
      exact h.skipGap_eq ending
    · obtain ⟨front, hfront⟩ := exists_progress_end hprogress
      have htail : skipGap ('\n' :: (report ++ ending)) = report ++ ending :=
        (List.dropWhile_cons_of_pos (by decide)).trans (h.skipGap_eq ending)
      have hsuffix : '\n' :: (report ++ ending) <:+ withProgress progress report ending :=
        ⟨front, by rw [withProgress, hfront, List.append_assoc]; rfl⟩
      rw [skipGap_eq_of_stops h.stops (by simp [htail, h.ne_nil]) hsuffix hread, htail]
  obtain ⟨rest, hvalue, -⟩ := readWithin_eq_ok_iff.mp hread
  rw [hskip] at hvalue
  exact (h.readValue_eq hvalue).1

/-- Behind blanks the report is read with the output as a whole. -/
lemma IsReportLine.readReport_of_blank (h : IsReportLine room report ending members)
    (hblank : ∀ line ∈ progress, ∀ c ∈ line, isGap c = true) :
    readReport room (withProgress progress report ending) = .ok (.obj members) := by
  have hgap : ∀ c ∈ progress.flatMap (· ++ ['\n']), isGap c = true := by
    intro c hc
    obtain ⟨line, hline, hc⟩ := List.mem_flatMap.mp hc
    rcases List.mem_append.mp hc with hc | hc
    · exact hblank line hline c hc
    · rw [List.mem_singleton.mp hc]
      decide
  have hskip : skipGap (withProgress progress report ending) = report ++ ending :=
    (List.dropWhile_append_of_pos hgap).trans (h.skipGap_eq ending)
  have hlength : report.length ≤ (withProgress progress report ending).length := by
    simp only [withProgress, List.length_append]
    omega
  obtain ⟨behind, hreport, hbehind⟩ := readWithin_eq_ok_iff.mp h.read
  have hself := h.skipGap_eq []
  rw [List.append_nil] at hself
  rw [hself] at hreport
  have hfuel : 2 * report.length + 2 ≤ 2 * (withProgress progress report ending).length + 2 := by
    omega
  have hread := (read_append h.isTail hfuel).value (Nat.le_refl room) hreport
  refine readWithin_eq_ok_iff.mpr ⟨_, hskip ▸ hread, (h.readValue_eq hread).2⟩

lemma IsReportLine.reportOnLine (h : IsReportLine room report ending members)
    (rest : List (List Char)) : reportOnLine room (report :: rest) = .ok (some members) := by
  simp only [Forge.reportOnLine, if_pos h.brace, h.read]

/-- **The report is found behind progress lines** exactly if the output as a whole is not beyond
what is read of JSON.  This is so if there is no separator in the report, or nothing but blanks in
the progress lines. -/
theorem findReport_behind_progress_iff (h : IsReportLine room report ending members)
    (hclean : (∀ c ∈ separators, c ∉ report) ∨ ∀ line ∈ progress, ∀ c ∈ line, isGap c = true) :
    findReport room (withProgress progress report ending) = .ok (some members) ↔
      ∀ cause, ¬Overlong room (withProgress progress report ending) cause := by
  constructor
  · intro hfound cause hlong
    rw [findReport_eq_error_iff.mpr (.whole hlong)] at hfound
    cases hfound
  · intro hshort
    unfold findReport
    cases hread : readReport room (withProgress progress report ending) with
    | ok v => rw [h.eq_of_readReport hread]
    | error fault =>
      cases fault with
      | oversized digits => exact absurd (.oversized hread) (hshort _)
      | tooDeep => exact absurd (.tooDeep hread) (hshort _)
      | malformed =>
        rcases hclean with hseparators | hblank
        · obtain ⟨before, hlines⟩ := h.exists_lines progress hseparators
          simp only [hlines, List.reverse_append, List.reverse_singleton, List.singleton_append]
          exact h.reportOnLine _
        · rw [h.readReport_of_blank hblank] at hread
          cases hread

end ReportLine

/-- A report in which a suite failed for a reason. -/
def reportWithReason (reason : List Char) : List Char :=
  "\x7b\"DynamicHoneypotTest\": \x7b\"test_results\": \x7b\"invariant_transfer()\": ".toList ++
    ("\x7b\"status\": \"Failure\", \"reason\": \"".toList ++ reason ++ "\"\x7d\x7d\x7d\x7d".toList)

/-- Progress of a compiler, with a brace in it. -/
def compiling : List (List Char) := ["Compiling".toList, "files: \x7b".toList]

lemma exists_members (room : Nat) (cs : List Char)
    (h : (match readReport room cs with | .ok (.obj _) => true | _ => false) = true) :
    ∃ members, readReport room cs = .ok (.obj members) := by
  split at h
  next members hread => exact ⟨members, hread⟩
  next => cases h

lemma not_overlong {room : Nat} {cs : List Char}
    (h : (match readReport room cs with | .error .malformed => true | _ => false) = true)
    (cause : ShapeFault) : ¬Overlong room cs cause := by
  split at h
  next hread =>
    rintro (hlong | hlong)
    · cases hread.symm.trans hlong
    · cases hread.symm.trans hlong
  next => cases h

/-- A report is found behind the progress of a compiler. -/
theorem findReport_behind_progress_compiling :
    ∃ members, readReport 8 (reportWithReason "held".toList) = .ok (.obj members) ∧
      findReport 8 (withProgress compiling (reportWithReason "held".toList) ['\n'])
        = .ok (some members) := by
  obtain ⟨members, hread⟩ := exists_members 8 (reportWithReason "held".toList) (by decide +kernel)
  have h : IsReportLine 8 (reportWithReason "held".toList) ['\n'] members :=
    ⟨hread, by decide, by decide, by decide, .inr rfl⟩
  have hunbroken : separators.all (!(reportWithReason "held".toList).contains ·) = true := by
    decide +kernel
  have hseparators : ∀ c ∈ separators, c ∉ reportWithReason "held".toList := fun c hc => by
    simpa using List.all_eq_true.mp hunbroken c hc
  exact ⟨members, hread, (findReport_behind_progress_iff h (.inl hseparators)).mpr
    (not_overlong (by decide +kernel))⟩

/-- A report with a line separator in it is missed behind the same progress. -/
theorem report_with_separator_missed :
    ¬∀ (room : Nat) (progress : List (List Char)) (report ending : List Char) (members : Members),
      IsReportLine room report ending members →
      (∀ line ∈ progress, '\n' ∉ line ∧ line.head? ≠ some '{') →
      (∀ cause, ¬Overlong room (withProgress progress report ending) cause) →
      findReport room (withProgress progress report ending) = .ok (some members) := by
  intro hall
  obtain ⟨members, hread⟩ := exists_members 8 (reportWithReason "a\u2028b".toList)
    (by decide +kernel)
  have h : IsReportLine 8 (reportWithReason "a\u2028b".toList) ['\n'] members :=
    ⟨hread, by decide, by decide, by decide, .inr rfl⟩
  have hfound := hall 8 compiling _ _ _ h (by decide) (not_overlong (by decide +kernel))
  have hmissed : ((findReport 8 (withProgress compiling
      (reportWithReason "a\u2028b".toList) ['\n'])).toOption.bind id).isSome = false := by
    decide +kernel
  rw [hfound] at hmissed
  cases hmissed

end HoneypotAudit.Forge
