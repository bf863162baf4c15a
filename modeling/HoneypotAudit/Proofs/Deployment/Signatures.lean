import HoneypotAudit.Deployment.Arguments
import HoneypotAudit.Proofs.Solidity.Rendering

/-!
# The texts of parameter lists

The types of a parameter list have texts of two kinds, one by one: the ABI type texts, which are the
signature, and the spellings.  Types that have a signature are all spelled, if there is room for the
deepest of them (`exists_spellings_iff`).  `Rows` puts together what belongs to one parameter, so
that what is done for one after the other is followed by one induction.
-/

namespace HoneypotAudit.Deployment

open HoneypotAudit.Abi HoneypotAudit.Solidity HoneypotAudit.Outcome

section Texts

variable {room : Nat} {rooms : Rooms} {types : List TypeName} {texts : List (List Char)}
  {abiTypes : List AbiType}

lemma signature_eq_mapM (room : Nat) (types : List TypeName) :
    Abi.signature room types = types.mapM (typeText room) := by
  induction types with
  | nil => rfl
  | cons T types ih =>
    rw [Abi.signature, List.mapM_cons, ih]
    rfl

lemma spellings_eq_mapM (room : Nat) (types : List TypeName) :
    spellings room types = types.mapM (TypeName.spelling room) := by
  induction types with
  | nil => rfl
  | cons T types ih =>
    rw [spellings, List.mapM_cons, ih]
    rfl

lemma resolveAll_eq_mapM (rooms : Rooms) (texts : List (List Char)) :
    resolveAll rooms texts = texts.mapM (resolve rooms) := by
  induction texts with
  | nil => rfl
  | cons cs texts ih =>
    rw [resolveAll, List.mapM_cons, ih]
    rfl

lemma signature_eq_ok_iff : Abi.signature room types = .ok texts ↔
    List.Forall₂ (fun T text => typeText room T = .ok text) types texts := by
  rw [signature_eq_mapM, mapM_eq_ok_iff]

lemma spellings_eq_ok_iff : spellings room types = .ok texts ↔
    List.Forall₂ (fun T text => T.spelling room = .ok text) types texts := by
  rw [spellings_eq_mapM, mapM_eq_ok_iff]

lemma resolveAll_eq_ok_iff : resolveAll rooms texts = .ok abiTypes ↔
    List.Forall₂ (fun text t => resolve rooms text = .ok t) texts abiTypes := by
  rw [resolveAll_eq_mapM, mapM_eq_ok_iff]

/-- Texts are looked up until the first one that is at fault. -/
lemma resolveAll_eq_error_iff {cause : TypeFault} :
    resolveAll rooms texts = .error cause ↔ ∃ before text after, texts = before ++ text :: after ∧
      (∀ cs ∈ before, ∃ t, resolve rooms cs = .ok t) ∧ resolve rooms text = .error cause := by
  rw [resolveAll_eq_mapM, mapM_eq_error_iff]

end Texts

section Spellings

variable {described room : Nat} {types : List TypeName} {signature : List (List Char)}
  (hsignature : Abi.signature described types = .ok signature)
include hsignature

/-- **Types with a signature are spelled** just if there is room for each of them. -/
theorem exists_spellings_iff :
    (∃ declared, spellings room types = .ok declared) ↔ ∀ T ∈ types, T.depth ≤ room := by
  rw [signature_eq_ok_iff] at hsignature
  simp only [spellings_eq_ok_iff]
  induction hsignature with
  | nil => exact iff_of_true ⟨[], .nil⟩ (by simp)
  | cons htext _ ih =>
    obtain ⟨sol, -, -, -, hsol, -⟩ := exists_spelledLike htext
    rw [List.forall_mem_cons, ← ih]
    constructor
    · rintro ⟨_, hdeclared⟩
      cases hdeclared with
      | cons hspelling hspellings =>
        exact ⟨(hsol.eq_of_spelling hspelling).2, _, hspellings⟩
    · rintro ⟨hdepth, declared, hdeclared⟩
      exact ⟨sol :: declared, .cons (by rw [hsol room, if_pos hdepth]) hdeclared⟩

end Spellings

/-- Parameters row by row: a declared type, its ABI type text, its spelling, its ABI type, and a
value that fits. -/
inductive Rows (described spelled : Nat) (rooms : Rooms) : List TypeName → List (List Char) →
    List (List Char) → List AbiType → List Value → Prop
  | nil : Rows described spelled rooms [] [] [] [] []
  | cons {T : TypeName} {text sol : List Char} {t : AbiType} {v : Value} {types : List TypeName}
      {texts sols : List (List Char)} {abiTypes : List AbiType} {values : List Value}
      (htext : typeText described T = .ok text) (hsol : T.spelling spelled = .ok sol)
      (hresolve : resolve rooms text = .ok t) (hv : Fits t v)
      (h : Rows described spelled rooms types texts sols abiTypes values) :
      Rows described spelled rooms (T :: types) (text :: texts) (sol :: sols) (t :: abiTypes)
        (v :: values)

/-- Texts and types that were found for all parameters, and values that fit, make up rows. -/
lemma rows_of_signature {described spelled : Nat} {rooms : Rooms} {types : List TypeName}
    {signature declared : List (List Char)} {abiTypes : List AbiType} {values : List Value}
    (hsignature : Abi.signature described types = .ok signature)
    (hdeclared : spellings spelled types = .ok declared)
    (htypes : resolveAll rooms signature = .ok abiTypes)
    (hvalues : List.Forall₂ Fits abiTypes values) :
    Rows described spelled rooms types signature declared abiTypes values := by
  rw [signature_eq_ok_iff] at hsignature
  rw [spellings_eq_ok_iff] at hdeclared
  rw [resolveAll_eq_ok_iff] at htypes
  induction hsignature generalizing declared abiTypes values with
  | nil =>
    cases hdeclared
    cases htypes
    cases hvalues
    exact .nil
  | cons htext _ ih =>
    cases hdeclared with
    | cons hsol hdeclared =>
      cases htypes with
      | cons hresolve htypes =>
        cases hvalues with
        | cons hv hvalues => exact .cons htext hsol hresolve hv (ih hdeclared htypes hvalues)

end HoneypotAudit.Deployment
