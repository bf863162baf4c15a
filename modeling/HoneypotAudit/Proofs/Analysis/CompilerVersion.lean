import HoneypotAudit.Analysis.Compilation
import HoneypotAudit.Proofs.Session.Runs
import HoneypotAudit.Proofs.Solidity.Versions

/-!
# The version that a source is compiled with

A compilation asks the compiler for one version only: it is installed if it is not there, and the
source is compiled with it if it is there then (`asks_of_compile`).  Without a fixed version it is
the version that the source names, or the one to fall back to.  A source with a version pragma gets
a version that the pragma asks for in four cases, and in no others (`compile_satisfies_iff`).
-/

namespace HoneypotAudit

open HoneypotAudit.Session HoneypotAudit.Solidity.Pragma HoneypotAudit.Text

/-! ## Calls of the compiler -/

namespace Solc.Compiler

/-- The calls for installing a version. -/
def installCalls (compiler : Compiler) (version : String) : List Call :=
  if compiler.installed.contains version then [] else [.install version]

/-- A version is there, or can be installed. -/
def provides (compiler : Compiler) (version : String) : Bool :=
  compiler.installed.contains version || compiler.installFault.isNone

/-- The calls for compiling with a version. -/
def compileCalls (compiler : Compiler) (request : Json) (version : String) : List Call :=
  compiler.installCalls version ++
    if compiler.provides version then [.compile request version] else []

end Solc.Compiler

/-- From one session to another the compiler was called like this, and not otherwise. -/
def Asks (calls : List Solc.Call) (s s' : Session) : Prop :=
  s'.compilerCalls = s.compilerCalls ++ calls

lemma Asks.none {s s' : Session} (h : s'.compilerCalls = s.compilerCalls) : Asks [] s s' := by
  rw [Asks, h, List.append_nil]

lemma Asks.trans {before after : List Solc.Call} {s s₁ s' : Session} (h : Asks before s s₁)
    (h' : Asks after s₁ s') : Asks (before ++ after) s s' := by
  rw [Asks, h', h, List.append_assoc]

namespace Analysis

variable {ε : Type} {s s' : Session}

lemma asks_of_noteCompiler {call : Solc.Call} {o : Except ε Unit}
    (h : Ends (liftM (noteCompiler call)) s o s') : Asks [call] s s' := by
  obtain ⟨-, rfl⟩ := ends_lift_iff.mp h
  rfl

lemma asks_of_compilerLog {level : Int} {message : String} {o : Except ε Unit}
    (h : Ends (liftM (compilerLog level message)) s o s') : Asks [] s s' := by
  obtain ⟨-, rfl⟩ := ends_lift_iff.mp h
  exact .none rfl

/-- A version is installed unless it is there.  Nothing is wrong in the end if it is there or could
be installed. -/
lemma asks_of_ensureInstalled {version : String} {o : Except Breakdown (Option String)}
    (h : Ends (ensureInstalled version) s o s') :
    Asks (s.compiler.installCalls version) s s' ∧
      (o = .ok none ↔ s.compiler.provides version = true) := by
  rw [ensureInstalled, ends_get_bind_iff] at h
  dsimp only at h
  by_cases hthere : s.compiler.installed.contains version = true
  · rw [if_pos hthere] at h
    obtain ⟨rfl, rfl⟩ := ends_pure_iff.mp h
    rw [Solc.Compiler.installCalls, if_pos hthere, Solc.Compiler.provides, hthere]
    exact ⟨.none rfl, by simp⟩
  · rw [if_neg hthere] at h
    obtain ⟨_, s₁, hlog, h⟩ := ends_lift_bind_iff.mp h
    obtain ⟨_, s₂, hinstall, h⟩ := ends_lift_bind_iff.mp h
    have hasks : Asks [.install version] s s₂ :=
      (asks_of_compilerLog hlog).trans (asks_of_noteCompiler hinstall)
    rw [Solc.Compiler.installCalls, if_neg hthere, Solc.Compiler.provides,
      Bool.eq_false_iff.mpr hthere]
    cases hfault : s.compiler.installFault with
    | none =>
      rw [hfault] at h
      obtain ⟨rfl, rfl⟩ := ends_pure_iff.mp h
      exact ⟨hasks, by simp⟩
    | some fault =>
      rw [hfault] at h
      cases fault with
      | unavailable message =>
        obtain ⟨rfl, rfl⟩ := ends_pure_iff.mp h
        exact ⟨hasks, by simp⟩
      | noVersion message =>
        obtain ⟨rfl, rfl⟩ := ends_throw_iff.mp h
        exact ⟨hasks, by simp⟩

/-- **The one version of a compilation.**  It is the one that is installed, compiled with and told
with the result. -/
lemma asks_of_compile {c : Compiling} {source : String} {o : Except Breakdown Solc.Compilation}
    (h : Ends (compile c source) s o s') :
    Asks (s.compiler.compileCalls (Solc.request c.fileName source)
        (c.version.versionFor source.toList)) s s' ∧
      ∀ r, o = .ok r → r.version = c.version.versionFor source.toList := by
  rw [compile] at h
  generalize c.version.versionFor source.toList = version at h ⊢
  rw [Solc.Compiler.compileCalls]
  rcases ends_bind_iff.mp h with ⟨e, hinstall, rfl⟩ | ⟨fault, s₁, hinstall, h⟩
  · obtain ⟨hasks, hprovides⟩ := asks_of_ensureInstalled hinstall
    have hmissing : ¬s.compiler.provides version = true := by simpa using hprovides
    rw [if_neg hmissing, List.append_nil]
    exact ⟨hasks, nofun⟩
  obtain ⟨hasks, hprovides⟩ := asks_of_ensureInstalled hinstall
  cases fault with
  | some message =>
    have hmissing : ¬s.compiler.provides version = true := by simpa using hprovides
    obtain ⟨_, s₂, hlog, h⟩ := ends_lift_bind_iff.mp h
    obtain ⟨rfl, rfl⟩ := ends_pure_iff.mp h
    rw [if_neg hmissing]
    refine ⟨hasks.trans (asks_of_compilerLog hlog), ?_⟩
    rintro r ⟨⟩
    rfl
  | none =>
    obtain ⟨_, s₂, hcompile, h⟩ := ends_lift_bind_iff.mp h
    have hcompiles := hasks.trans (asks_of_noteCompiler hcompile)
    rw [if_pos (hprovides.mp rfl)]
    rw [ends_get_bind_iff] at h
    dsimp only at h
    split at h
    · obtain ⟨_, s₃, hlog, h⟩ := ends_lift_bind_iff.mp h
      obtain ⟨rfl, rfl⟩ := ends_pure_iff.mp h
      refine ⟨by simpa using hcompiles.trans (asks_of_compilerLog hlog), ?_⟩
      rintro r ⟨⟩
      rfl
    · obtain ⟨rfl, rfl⟩ := ends_pure_iff.mp h
      refine ⟨hcompiles, ?_⟩
      rintro r ⟨⟩
      rfl

/-! ## The version that a source asks for -/

/-- Without a fixed version it is the one that the source names, or else the one to fall back to. -/
lemma toList_versionFor {choice : Solc.VersionChoice} (hpinned : choice.pinned.getD "" = "")
    (source : List Char) :
    (choice.versionFor source).toList = (version? source).getD choice.fallback.toList := by
  have hdetected : choice.versionFor source =
      ((version? source).map String.ofList).getD choice.fallback := by
    obtain ⟨pinned, fallback⟩ := choice
    cases pinned with
    | none => rfl
    | some v =>
      obtain rfl : v = "" := hpinned
      rfl
  rw [hdetected]
  cases version? source with
  | none => rfl
  | some version => exact String.toList_ofList

/-- **When a source is compiled with a version that it asks for.**  Of a source with a version
pragma, and whatever stands around that, all calls of the compiler and the result are about one
version.  That version is admitted by all comparators of the pragma when an admitted one is named in
front of it, in a comment say; or when none is, and the first comparator names a full version that
it admits itself, as all others do; or when that comparator names none, and what is named behind the
pragma, or else the version to fall back to, happens to be admitted. -/
theorem compile_satisfies_iff {c : Compiling} {source : String} {front text rest : List Char}
    {first : Comparator} {others : List Comparator} (hpinned : c.version.pinned.getD "" = "")
    (hsource : source.toList = front ++ (text ++ rest))
    (hpragma : IsVersionPragma (first :: others) text) :
    ∃ version : String,
      (∀ s o s', Ends (compile c source) s o s' →
        s'.compilerCalls = s.compilerCalls ++
            s.compiler.compileCalls (Solc.request c.fileName source) version ∧
          ∀ r, o = .ok r → r.version = version) ∧
      (Satisfies version.toList (first :: others) ↔
        FindsAdmitted front first others rest c.version.fallback.toList) := by
  refine ⟨c.version.versionFor source.toList, ?_, ?_⟩
  · intro s o s' h
    obtain ⟨hasks, hversion⟩ := asks_of_compile h
    exact ⟨hasks, hversion⟩
  · rw [toList_versionFor hpinned, hsource]
    exact satisfies_version_iff hpragma

/-- A range that begins with a version that it admits, behind a comment without a full version. -/
theorem compile_satisfies_atLeast_below :
    ∃ version : String,
      (∀ s o s',
        Ends (compile {} "// pragma solidity ^0.4;\npragma solidity >=0.8.4 <0.9;") s o s' →
        s'.compilerCalls = s.compilerCalls ++ s.compiler.compileCalls
            (Solc.request "Contract.sol" "// pragma solidity ^0.4;\npragma solidity >=0.8.4 <0.9;")
            version ∧
          ∀ r, o = .ok r → r.version = version) ∧
      Satisfies version.toList [⟨.atLeast, 0, 8, some 4⟩, ⟨.below, 0, 9, none⟩] := by
  have hspace : [' '] ≠ [] ∧ IsGap [' '] := ⟨by decide, isGap_space⟩
  have hsource : "// pragma solidity ^0.4;\npragma solidity >=0.8.4 <0.9;".toList =
      "// pragma solidity ^0.4;\n".toList ++ ("pragma solidity >=0.8.4 <0.9;".toList ++ []) := by
    decide
  have hpragma : IsVersionPragma [⟨.atLeast, 0, 8, some 4⟩, ⟨.below, 0, 9, none⟩]
      "pragma solidity >=0.8.4 <0.9;".toList :=
    ⟨[' '], [' '], _, hspace, hspace, .cons _ isGap_nil hspace (.last _ isGap_nil isGap_nil),
      by decide +kernel⟩
  obtain ⟨version, hcalls, hsatisfies⟩ := compile_satisfies_iff (c := {}) rfl hsource hpragma
  have hfront : NamesNone "// pragma solidity ^0.4;\n".toList :=
    version?_eq_none_iff.mp (by decide +kernel)
  have hothers : ∀ d ∈ [(⟨.below, 0, 9, none⟩ : Comparator)], d.admits ⟨0, 8, 4⟩ = true := by
    decide
  exact ⟨version, hcalls, hsatisfies.mpr (.first hfront rfl (by decide) hothers)⟩

/-- A source that asks for versions above one is compiled with that one.  There is a version that it
asks for. -/
theorem compile_above_excluded :
    IsVersionPragma [⟨.above, 0, 7, some 5⟩, ⟨.below, 0, 7, some 7⟩]
        "pragma solidity >0.7.5 <0.7.7;".toList ∧
      Satisfies "0.7.6".toList [⟨.above, 0, 7, some 5⟩, ⟨.below, 0, 7, some 7⟩] ∧
      ∃ o s', Ends (compile {} "pragma solidity >0.7.5 <0.7.7;\ncontract C \x7b\x7d")
          { rooms := .same 8 } o s' ∧
        ∃ call ∈ s'.compilerCalls,
          ¬Satisfies call.version.toList [⟨.above, 0, 7, some 5⟩, ⟨.below, 0, 7, some 7⟩] := by
  have hspace : [' '] ≠ [] ∧ IsGap [' '] := ⟨by decide, isGap_space⟩
  have hpragma : IsVersionPragma [⟨.above, 0, 7, some 5⟩, ⟨.below, 0, 7, some 7⟩]
      "pragma solidity >0.7.5 <0.7.7;".toList :=
    ⟨[' '], [' '], _, hspace, hspace, .cons _ isGap_nil hspace (.last _ isGap_nil isGap_nil),
      by decide +kernel⟩
  have hversion : ({} : Compiling).version.versionFor
      "pragma solidity >0.7.5 <0.7.7;\ncontract C \x7b\x7d".toList = "0.7.5" := by
    decide +kernel
  obtain ⟨o, s', hends⟩ : ∃ o s',
      Ends (compile {} "pragma solidity >0.7.5 <0.7.7;\ncontract C \x7b\x7d")
        { rooms := .same 8 } o s' :=
    ⟨_, _, rfl⟩
  have htrace := (asks_of_compile hends).1
  rw [hversion] at htrace
  refine ⟨hpragma, ⟨⟨0, 7, 6⟩, by decide +kernel, by decide⟩, o, s', hends, ?_⟩
  refine ⟨.install "0.7.5", ?_, ?_⟩
  · rw [htrace]
    exact List.mem_cons_self
  · have htext : "0.7.5".toList = (Version.mk 0 7 5).text := by decide +kernel
    rw [Solc.Call.version, htext, satisfies_text_iff]
    decide

end Analysis

end HoneypotAudit
