import HoneypotAudit.Analysis.Preparation
import HoneypotAudit.Proofs.Session.Runs

/-!
# Runs of the preparation

A preparation calls the tool at most twice, both times to format (`ends_prepare`).  The second call
is made only once the source was formatted, its facts were read and a place for the injection was
found (`Found`); a preparation that comes to its end has made both calls.
-/

namespace HoneypotAudit.Analysis

open HoneypotAudit.Session HoneypotAudit.Solidity HoneypotAudit.Deployment HoneypotAudit.Outcome

/-! ## Steps -/

/-- Formatting is one call. -/
lemma makes_format {f : Forge.Formatter} {source : String} {s s' : Session}
    {o : Except Stop String} (h : Ends (format f source) s o s') : Makes [f.call] s s' := by
  obtain ⟨o, h, -⟩ := ends_adapt_iff.mp h
  obtain ⟨outcome, s₁, hformat, h⟩ := ends_lift_bind_iff.mp h
  obtain ⟨-, rfl⟩ := ends_lift_iff.mp hformat
  have hcall := makes_call f.call source s
  cases outcome with
  | missing =>
    obtain ⟨-, rfl⟩ := ends_throw_iff.mp h
    exact hcall
  | timedOut =>
    obtain ⟨-, rfl⟩ := ends_throw_iff.mp h
    exact hcall
  | finished output =>
    dsimp only at h
    split at h
    · obtain ⟨-, rfl⟩ := ends_pure_iff.mp h
      exact hcall
    · refine hcall.trans (Quiet.makes_of_ends ?_ h)
      exact Calls.log_bind fun _ => calls_run_throw _

/-- Formatting is a call and else idles. -/
lemma moves_format {R : Session → Session → Prop} [IsPreorder Session R] {f : Forge.Formatter}
    (hidle : ∀ s s', Idles s s' → R s s')
    (hcall : ∀ usual, Moves R (Session.call f.call usual)) (source : String) :
    Moves R (format f source).run := by
  refine Moves.run_adapt (Moves.run_bind (Moves.run_lift (hcall source)) fun outcome => ?_)
  cases outcome with
  | missing => exact moves_run_throw _
  | timedOut => exact moves_run_throw _
  | finished output =>
    dsimp only
    split
    · exact moves_run_pure _
    · exact Moves.run_bind (Moves.run_lift ((idles_log _).mono hidle)) fun _ => moves_run_throw _

/-- Formatting calls the formatter only. -/
lemma calls_format (f : Forge.Formatter) (source : String) :
    Calls (· = f.call) (format f source).run :=
  moves_format (fun _ _ => Idles.makesOnly) (calls_call (P := (· = f.call)) rfl) source

lemma idles_ensureInstalled (version : String) : Moves Idles (ensureInstalled version).run := by
  refine Moves.run_bind moves_get fun s => ?_
  dsimp only
  split
  · exact moves_run_pure _
  refine Moves.run_bind (Moves.run_lift (idles_log _)) fun _ => ?_
  refine Moves.run_bind (Moves.run_lift (idles_noteCompiler _)) fun _ => ?_
  split
  · exact moves_run_pure _
  · exact moves_run_pure _
  · exact moves_run_throw _

lemma idles_compile (c : Compiling) (source : String) : Moves Idles (compile c source).run := by
  refine Moves.run_bind (idles_ensureInstalled _) fun fault => ?_
  cases fault with
  | some message =>
    exact Moves.run_bind (Moves.run_lift (idles_log _)) fun _ => moves_run_pure _
  | none =>
    refine Moves.run_bind (Moves.run_lift (idles_noteCompiler _)) fun _ => ?_
    refine Moves.run_bind moves_get fun s => ?_
    dsimp only
    split
    · exact Moves.run_bind (Moves.run_lift (idles_log _)) fun _ => moves_run_pure _
    · exact moves_run_pure _

/-- Facts are read without the tool. -/
lemma idles_factsOf (c : Compiling) (source : String) : Moves Idles (factsOf c source).run := by
  refine Moves.run_bind (Moves.run_adapt (idles_compile c source)) fun compilation => ?_
  dsimp only
  split
  case' isTrue => refine Moves.run_bind (moves_run_throw _) fun _ => ?_
  all_goals
    refine Moves.run_bind moves_get fun s => ?_
    split
    · exact moves_run_throw _
    split
    · exact moves_run_throw _
    · exact Moves.run_bind (Moves.run_lift (idles_log _)) fun _ => moves_run_pure _

lemma quiet_factsOf (c : Compiling) (source : String) : Quiet (factsOf c source).run :=
  .of_idles (idles_factsOf c source)

lemma idles_decode (facts : Facts) (blob : Blob) : Moves Idles (decode facts blob).run := by
  refine Moves.run_bind moves_get fun s => ?_
  split
  · exact moves_run_throw _
  split
  · exact moves_run_pure _
  · exact Moves.run_bind (Moves.run_lift (idles_log _)) fun _ => moves_run_pure _

lemma quiet_decode (facts : Facts) (blob : Blob) : Quiet (decode facts blob).run :=
  .of_idles (idles_decode facts blob)

/-! ## Injection -/

/-- Nothing is formatted without a plan and a place for it. -/
lemma ends_inject {i : Injector} {source : String} {facts : Facts} {s s' : Session}
    {o : Except Stop String} (h : Ends (i.inject source facts) s o s') :
    (Makes [] s s' ∧ ∃ e, o = .error e) ∨
      Makes [i.formatter.call] s s' ∧ ∃ plan injected,
        Injection.Plan.ofFacts facts i.amount = .ok plan ∧
          plan.apply source.toList = .ok injected := by
  rw [Injector.inject] at h
  split at h
  next cause hplan =>
    obtain ⟨rfl, rfl⟩ := ends_throw_iff.mp h
    exact .inl ⟨.none rfl rfl, _, rfl⟩
  next plan hplan =>
    obtain ⟨_, s₁, hlog, h⟩ := ends_lift_bind_iff.mp h
    have hlog : Makes [] s s₁ := Quiet.makes_of_ends (Calls.run_lift (quiet_log _)) hlog
    split at h
    · obtain ⟨rfl, rfl⟩ := ends_throw_iff.mp h
      exact .inl ⟨hlog, _, rfl⟩
    next injected happly =>
      exact .inr ⟨hlog.trans (makes_format h), plan, injected, hplan, happly⟩

/-- The source was formatted with one call, its facts were read off the formatted text, and there
is a place for the planned text. -/
inductive Found (p : Preparing) (source : String) (s : Session) (facts : Facts) : Prop
  | intro {formatted : String} {s₁ s₂ : Session} {plan : Injection.Plan} {injected : List Char}
      (formats : Ends (format p.formatter source) s (.ok formatted) s₁)
      (reads : Ends (factsOf p.compiling formatted) s₁ (.ok facts) s₂)
      (once : Makes [p.formatter.call] s s₂)
      (plans : Injection.Plan.ofFacts facts p.amounts.seed = .ok plan)
      (places : plan.apply formatted.toList = .ok injected)

/-- There is a second call exactly when all that was found. -/
lemma ends_injectSource {p : Preparing} {source : String} {s s' : Session}
    {o : Except Stop (String × Facts)} (h : Ends (p.injector.injectSource source) s o s') :
    (Makes [p.formatter.call] s s' ∧ ∃ e, o = .error e) ∨
      ∃ facts, Found p source s facts ∧ Makes [p.formatter.call, p.formatter.call] s s' ∧
        ∀ result, o = .ok result → result.2 = facts := by
  rcases ends_bind_iff.mp h with ⟨e, hfail, rfl⟩ | ⟨formatted, s₁, hformat, h⟩
  · exact .inl ⟨makes_format hfail, e, rfl⟩
  rcases ends_bind_iff.mp h with ⟨e, hfail, rfl⟩ | ⟨facts, s₂, hfacts, h⟩
  · have hquiet := (quiet_factsOf _ _).makes_of_ends hfail
    exact .inl ⟨(makes_format hformat).trans hquiet, e, rfl⟩
  have hfirst : Makes [p.formatter.call] s s₂ :=
    (makes_format hformat).trans ((quiet_factsOf _ _).makes_of_ends hfacts)
  rcases ends_bind_iff.mp h with ⟨e, hfail, rfl⟩ | ⟨injected, s₃, hinject, h⟩
  · rcases ends_inject hfail with ⟨hnone, -⟩ | ⟨hsecond, plan, injected, hplan, happly⟩
    · exact .inl ⟨hfirst.trans hnone, e, rfl⟩
    · exact .inr ⟨facts, ⟨hformat, hfacts, hfirst, hplan, happly⟩, hfirst.trans hsecond,
        fun _ he => nomatch he⟩
  · obtain ⟨rfl, rfl⟩ := ends_pure_iff.mp h
    rcases ends_inject hinject with ⟨-, e, he⟩ | ⟨hsecond, plan, text, hplan, happly⟩
    · cases he
    · refine .inr ⟨facts, ⟨hformat, hfacts, hfirst, hplan, happly⟩, hfirst.trans hsecond, ?_⟩
      intro result hresult
      rw [← Except.ok.inj hresult]

/-! ## Preparation -/

lemma scenarios_suitesFor (amounts : Suite.Amounts) (facts : Facts) (args prelude : List String) :
    (Suite.suitesFor amounts facts args prelude).map (·.scenario) = Suite.scenariosFor facts := by
  rw [Suite.suitesFor, List.map_map]
  exact List.map_id _

/-- **A preparation formats once, and a second time only what it has found.**  If it comes to its
end, its suites are those of the scenarios that apply. -/
theorem ends_prepare {p : Preparing} {source : String} {blob : Blob} {s s' : Session}
    {o : Except Stop Prepared} (h : Ends (prepare p source blob) s o s') :
    (Makes [p.formatter.call] s s' ∧ ∃ e, o = .error e) ∨
      ∃ facts, Found p source s facts ∧ Makes [p.formatter.call, p.formatter.call] s s' ∧
        ∀ prepared, o = .ok prepared →
          prepared.facts = facts ∧ prepared.scenarios = Suite.scenariosFor facts := by
  rcases ends_bind_iff.mp h with ⟨e, hfail, rfl⟩ | ⟨⟨injected, found⟩, s₁, hinject, h⟩
  · rcases ends_injectSource hfail with ⟨hmakes, -⟩ | ⟨facts, hfound, hmakes, -⟩
    · exact .inl ⟨hmakes, e, rfl⟩
    · exact .inr ⟨facts, hfound, hmakes, fun _ he => nomatch he⟩
  rcases ends_injectSource hinject with ⟨-, e, he⟩ | ⟨facts, hfound, hmakes, hresult⟩
  · cases he
  obtain rfl : found = facts := hresult _ rfl
  refine .inr ⟨found, hfound, ?_, ?_⟩
  · have hbehind : Makes [] s₁ s' := by
      refine Quiet.makes_of_ends ?_ h
      exact Calls.run_bind (quiet_decode _ _) fun _ => Calls.log_bind fun _ => calls_run_pure _
    exact hmakes.trans hbehind
  · rintro prepared rfl
    obtain ⟨decoded, s₂, -, h⟩ := ends_bind_ok_iff.mp h
    obtain ⟨_, s₃, -, h⟩ := ends_bind_ok_iff.mp h
    obtain ⟨hprepared, -⟩ := ends_pure_iff.mp h
    rw [Except.ok.inj hprepared]
    exact ⟨rfl, scenarios_suitesFor _ _ _ _⟩

/-- A preparation does what formatting does; all else in it idles. -/
lemma moves_prepare {R : Session → Session → Prop} [IsPreorder Session R] {p : Preparing}
    (hidle : ∀ s s', Idles s s' → R s s')
    (hformat : ∀ source, Moves R (format p.formatter source).run) (source : String) (blob : Blob) :
    Moves R (prepare p source blob).run := by
  have hlog (r : Log.Record) : Moves R (Session.log r) := (idles_log r).mono hidle
  have hinject (source : String) (facts : Facts) :
      Moves R (p.injector.inject source facts).run := by
    rw [Injector.inject]
    split
    · exact moves_run_throw _
    refine Moves.run_bind (Moves.run_lift (hlog _)) fun _ => ?_
    split
    · exact moves_run_throw _
    · exact hformat _
  refine Moves.run_bind ?_ fun found => ?_
  · refine Moves.run_bind (hformat source) fun formatted => ?_
    refine Moves.run_bind ((idles_factsOf _ _).mono hidle) fun facts => ?_
    exact Moves.run_bind (hinject formatted facts) fun injected => moves_run_pure _
  · refine Moves.run_bind ((idles_decode _ _).mono hidle) fun decoded => ?_
    exact Moves.run_bind (Moves.run_lift (hlog _)) fun _ => moves_run_pure _

/-- A preparation calls nothing but the formatter. -/
lemma calls_prepare (p : Preparing) (source : String) (blob : Blob) :
    Calls (· = p.formatter.call) (prepare p source blob).run :=
  moves_prepare (fun _ _ => Idles.makesOnly) (calls_format p.formatter) source blob

end HoneypotAudit.Analysis
