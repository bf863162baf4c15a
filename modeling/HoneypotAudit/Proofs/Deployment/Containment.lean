import HoneypotAudit.Proofs.Deployment.Arguments
import HoneypotAudit.Proofs.Solidity.Containment

/-!
# Constructor arguments are closed

Whoever deploys a contract chooses the raw arguments of its constructor.  Whatever they are, the
expressions and statements that are decoded from them add nothing to the outline of the code that
they are pasted into (`closed_of_decodeArguments`).
-/

namespace HoneypotAudit.Deployment

open HoneypotAudit.Abi HoneypotAudit.Outcome HoneypotAudit.Solidity HoneypotAudit.Steps

/-- **The expressions of values that fit are closed**, one after another. -/
lemma ensures_renderArguments {types : List TypeName} (hordinary : ∀ T ∈ types, IsOrdinary T)
    {rooms : Rooms} {described spelled room : Nat} {signature declared : List (List Char)}
    {abiTypes : List AbiType} {values : List Value}
    (h : Rows described spelled rooms types signature declared abiTypes values) :
    Ensures IsTidy (fun arguments => ∀ e ∈ arguments, Closed e.toList)
      (renderArguments room (values.zip (signature.zip declared))) := by
  induction h with
  | nil => exact ensures_pure (by simp)
  | cons htext hsol hresolve hv _ ih =>
    obtain ⟨hT, hrest⟩ := List.forall_mem_cons.mp hordinary
    refine (ensures_render hT htext hsol hresolve hv).bind fun expr hexpr => ?_
    refine (ih hrest).bind fun exprs hexprs => ?_
    exact ensures_pure (List.forall_mem_cons.mpr ⟨by rwa [String.toList_ofList], hexprs⟩)

/-- **What is decoded is closed**, the arguments and the statements that have to run in front. -/
theorem closed_of_decodeArguments {rooms : Rooms} {types : List TypeName}
    (hordinary : ∀ T ∈ types, IsOrdinary T) {blob : Blob} {d : Decoded}
    (h : decodeArguments rooms types blob = .ok d) :
    (∀ e ∈ d.arguments, Closed e.toList) ∧ ∀ s ∈ d.statements, Closed s.toList := by
  have hall := allOrNothing_of_eq_ok h
  by_cases hne : types = []
  · rw [hall.empty hne]
    simp
  by_cases hfault : d.fault = none
  · obtain ⟨hsignature, hdeclared, -, htypes, hvalues, hrender⟩ := hall.complete hne hfault
    have hrows := rows_of_signature hsignature hdeclared htypes (fits_of_decode hvalues)
    have hnew : IsTidy {} := by simp [IsTidy]
    obtain ⟨htidy, harguments⟩ := ensures_renderArguments hordinary hrows hrender hnew
    exact ⟨harguments, htidy⟩
  · obtain ⟨harguments, hstatements⟩ := hall.nothing hfault
    simp [harguments, hstatements]

end HoneypotAudit.Deployment
