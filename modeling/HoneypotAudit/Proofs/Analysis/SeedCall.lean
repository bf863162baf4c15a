import HoneypotAudit.Proofs.Analysis.Injection
import HoneypotAudit.Proofs.Solidity.Classification

/-!
# The mint call

A token with a mint function gets a call of it in its constructor.  Whether there is such a function
is told by the names of the functions that cannot be called from outside, those of the contract and
of its bases together (`calls_iff`).  A function that is private to a base is among them, though no
other contract can call it.  So the call that is planned refers to a function that can be called,
unless the name stands for functions private to bases and nothing else
(`canCall_of_calls_iff`).
-/

namespace HoneypotAudit.Solidity

/-! ## Functions that a constructor can call -/

/-- A contract has a function of a name with a visibility. -/
def Contract.Declares (d : Contract) (name : String) (v : Visibility) : Prop :=
  ∃ f ∈ d.functions, f.name = name ∧ f.visibility = v

/-- The constructor of a contract can call a function of a name: one that is internal in a contract
of the chain, or one that is private to the contract itself. -/
def SourceUnit.CanCall (u : SourceUnit) (c : Contract) (name : String) : Prop :=
  (∃ d ∈ u.linearized c, d.Declares name .internal) ∨ c.Declares name .private

/-- The chain of a contract offers all that a token offers. -/
def SourceUnit.IsToken (u : SourceUnit) (c : Contract) : Prop :=
  ∀ name ∈ tokenSurface, ∃ d ∈ u.linearized c, d.Offers name

/-- A base of a contract has a function of a name for itself alone. -/
def SourceUnit.IsPrivateToBase (u : SourceUnit) (c : Contract) (name : String) : Prop :=
  ∃ d ∈ u.linearized c, d ≠ c ∧ d.Declares name .private

instance (d : Contract) (name : String) (v : Visibility) : Decidable (d.Declares name v) :=
  inferInstanceAs (Decidable (∃ f ∈ d.functions, f.name = name ∧ f.visibility = v))

instance (u : SourceUnit) (c : Contract) (name : String) : Decidable (u.CanCall c name) :=
  inferInstanceAs (Decidable (_ ∨ _))

instance (u : SourceUnit) (c : Contract) (name : String) : Decidable (u.IsPrivateToBase c name) :=
  inferInstanceAs (Decidable (∃ d ∈ u.linearized c, d ≠ c ∧ d.Declares name .private))

section Facts

variable {u : SourceUnit} {facts : Facts}

lemma eq_ofMembers_of_ofUnit (h : Facts.ofUnit u = .ok facts) :
    facts = .ofMembers facts.contract (u.functionsOf facts.contract)
      ((u.linearized facts.contract).flatMap (·.stateVariables)) := by
  unfold Facts.ofUnit at h
  split at h
  · cases h
  · next c _ =>
    obtain rfl := Except.ok.inj h
    rfl

lemma isToken_iff_of_ofUnit (h : Facts.ofUnit u = .ok facts) :
    facts.isToken = true ↔ u.IsToken facts.contract := by
  rw [eq_ofMembers_of_ofUnit h]
  exact all_contains_callableNames_iff (by decide)

lemma mem_internalFunctions_iff_of_ofUnit (h : Facts.ofUnit u = .ok facts) (name : String) :
    name ∈ facts.internalFunctions ↔ ∃ d ∈ u.linearized facts.contract, d.Hides name := by
  rw [eq_ofMembers_of_ofUnit h]
  exact mem_sortNames_hidden_iff

end Facts

lemma Contract.hides_iff {d : Contract} {name : String} (hname : name ≠ "") :
    d.Hides name ↔ d.Declares name .internal ∨ d.Declares name .private := by
  simp only [Hides, Declares, ← exists_or, ← and_or_left]
  exact and_iff_right hname

/-- A name that a contract of the chain hides is one that the constructor can call, or one that is
private to a base. -/
lemma SourceUnit.canCall_or_isPrivateToBase {u : SourceUnit} {c d : Contract} {name : String}
    (hd : d ∈ u.linearized c) (hname : name ≠ "") (h : d.Hides name) :
    u.CanCall c name ∨ u.IsPrivateToBase c name := by
  rcases (Contract.hides_iff hname).mp h with hinternal | hprivate
  · exact .inl (.inl ⟨d, hd, hinternal⟩)
  · by_cases hself : d = c
    · subst hself
      exact .inl (.inr hprivate)
    · exact .inr ⟨d, hd, hself, hprivate⟩

end HoneypotAudit.Solidity

namespace HoneypotAudit.Injection

open HoneypotAudit.Solidity HoneypotAudit.Outcome

/-! ## The planned code -/

/-- The planned code has the call of the mint function in it, up to the amount. -/
def Plan.Calls (plan : Plan) : Prop :=
  (mintFunction ++ "(msg.sender, ").toList <:+: plan.code.toList

section Plans

variable {u : SourceUnit} {facts : Facts} {amount : String} {plan : Plan}

/-- The call is planned exactly for tokens with a mint function among the names. -/
lemma calls_iff_mem (hplan : Plan.ofFacts facts amount = .ok plan) :
    plan.Calls ↔ facts.isToken = true ∧ mintFunction ∈ facts.internalFunctions := by
  have hcode := code_of_ofFacts hplan
  rw [seedCall_eq] at hcode
  by_cases hmints : facts.isToken = true ∧ mintFunction ∈ facts.internalFunctions
  · rw [if_pos hmints] at hcode
    refine ⟨fun _ => hmints, fun _ => ?_⟩
    split at hcode
    · rw [Plan.Calls, hcode]
      exact ⟨"\nconstructor() public \x7b ".toList, (amount ++ "); " ++ "\x7d").toList,
        by simp [String.toList_append]⟩
    · rw [Plan.Calls, hcode]
      exact ⟨"\n".toList, (amount ++ "); ").toList, by simp [String.toList_append]⟩
  · rw [if_neg hmints] at hcode
    refine ⟨fun hcalls => ?_, fun h => absurd h hmints⟩
    -- no other part of the code has an underscore
    have hmem : '_' ∈ plan.code.toList := hcalls.subset (by decide)
    split at hcode
    · rw [hcode] at hmem
      exact absurd hmem (by decide)
    · rw [hcode] at hmem
      exact absurd hmem (by decide)

lemma calls_iff (hfacts : Facts.ofUnit u = .ok facts)
    (hplan : Plan.ofFacts facts amount = .ok plan) :
    plan.Calls ↔ u.IsToken facts.contract ∧
      ∃ d ∈ u.linearized facts.contract, d.Hides mintFunction := by
  rw [calls_iff_mem hplan, isToken_iff_of_ofUnit hfacts,
    mem_internalFunctions_iff_of_ofUnit hfacts]

/-- **The planned call is one of a function that can be called, unless it is private to bases.**
The call is planned exactly for a token of which a contract of the chain has the mint function as
internal or private.  The constructor can call the function then, exactly if the contract is not
one of the tokens that have the mint function in bases only, and there private. -/
theorem canCall_of_calls_iff (hfacts : Facts.ofUnit u = .ok facts)
    (hplan : Plan.ofFacts facts amount = .ok plan) :
    (plan.Calls ↔ u.IsToken facts.contract ∧
        ∃ d ∈ u.linearized facts.contract, d.Hides mintFunction) ∧
      ((plan.Calls → u.CanCall facts.contract mintFunction) ↔
        ¬(u.IsToken facts.contract ∧ u.IsPrivateToBase facts.contract mintFunction ∧
          ¬u.CanCall facts.contract mintFunction)) := by
  have hname : mintFunction ≠ "" := by decide
  have hcalls := calls_iff hfacts hplan
  refine ⟨hcalls, ?_, ?_⟩
  · rintro hholds ⟨htoken, ⟨d, hd, -, hprivate⟩, hnot⟩
    apply hnot
    apply hholds
    exact hcalls.mpr ⟨htoken, d, hd, (Contract.hides_iff hname).mpr (.inr hprivate)⟩
  · intro hexcept hplanned
    obtain ⟨htoken, d, hd, hhides⟩ := hcalls.mp hplanned
    rcases SourceUnit.canCall_or_isPrivateToBase hd hname hhides with hcan | hbase
    · exact hcan
    · by_contra hnot
      exact hexcept ⟨htoken, hbase, hnot⟩

end Plans

/-- A token whose mint function has a visibility. -/
def mintingToken (v : Visibility) : Contract :=
  { tokenBase with functions := [{ name := "transfer" }, { name := "_mint", visibility := v }] }

/-- A contract that inherits from the token. -/
def placedToken : Contract :=
  { inheritingToken [2, 1] with location := { last := ⟨1, 5⟩ } }

/-- What is known about the contract if the mint function is internal or private. -/
def placedFacts : Facts :=
  { contract := placedToken, isToken := true, hasBalance := true, internalFunctions := ["_mint"] }

/-- What is planned for the contract. -/
def placedPlan : Plan :=
  ⟨⟨1, 5⟩, "\nconstructor() public \x7b _mint(msg.sender, 1e20); \x7d", true⟩

/-- The call of an internal function of a base. -/
theorem canCall_of_calls_internalMint :
    Facts.ofUnit { contracts := [mintingToken .internal, placedToken] } = .ok placedFacts ∧
      Plan.ofFacts placedFacts "1e20" = .ok placedPlan ∧ placedPlan.Calls ∧
      SourceUnit.CanCall { contracts := [mintingToken .internal, placedToken] } placedToken
        mintFunction := by
  have hfacts : Facts.ofUnit { contracts := [mintingToken .internal, placedToken] } =
      .ok placedFacts := by decide +kernel
  have hplan : Plan.ofFacts placedFacts "1e20" = .ok placedPlan := by decide +kernel
  have hcalls : placedPlan.Calls := (calls_iff_mem hplan).mpr (by decide +kernel)
  have hnoBase : ¬SourceUnit.IsPrivateToBase
      { contracts := [mintingToken .internal, placedToken] } placedToken mintFunction := by
    decide +kernel
  refine ⟨hfacts, hplan, hcalls, ?_⟩
  exact (canCall_of_calls_iff hfacts hplan).2.mpr (fun h => hnoBase h.2.1) hcalls

/-- The call of a function that is private to a base is planned all the same. -/
theorem calls_private_mint :
    Facts.ofUnit { contracts := [mintingToken .private, placedToken] } = .ok placedFacts ∧
      Plan.ofFacts placedFacts "1e20" = .ok placedPlan ∧ placedPlan.Calls ∧
      ¬SourceUnit.CanCall { contracts := [mintingToken .private, placedToken] } placedToken
        mintFunction := by
  have hplan : Plan.ofFacts placedFacts "1e20" = .ok placedPlan := by decide +kernel
  exact ⟨by decide +kernel, hplan, (calls_iff_mem hplan).mpr (by decide +kernel), by decide +kernel⟩

end HoneypotAudit.Injection
