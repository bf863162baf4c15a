import HoneypotAudit.Proofs.Outcome
import HoneypotAudit.Solidity.Facts

/-!
# Locations of declarations

Every location in a contract that was read from a syntax tree is either unknown or the span of some
bytes of the source (`readUnit_locations`).  The contract of an analysis is one of those of its
source unit, so this is so for the place where text is inserted too.
-/

namespace HoneypotAudit.Solidity

open HoneypotAudit.Text HoneypotAudit.Source HoneypotAudit.Outcome

/-! ## Spans -/

/-- A location that is unknown or a span of the source. -/
def IsSpan (data : Bytes) (l : Location) : Prop :=
  l = {} ∨ ∃ offset length file, l = .ofSpan (some data) offset length file

/-- A function whose locations are spans of the source. -/
def FunctionDecl.IsLocated (data : Bytes) (f : FunctionDecl) : Prop :=
  IsSpan data f.location ∧ ∀ body ∈ f.body, IsSpan data body

/-- A contract for which this is so, as it is for its functions. -/
def Contract.IsLocated (data : Bytes) (c : Contract) : Prop :=
  IsSpan data c.location ∧ ∀ f ∈ c.functions, f.IsLocated data

namespace Tree

variable {rooms : Rooms} {data : Bytes} {node : Json}

lemma isSpan_of_location {l : Location} (h : location data node = .ok l) : IsSpan data l := by
  rw [location] at h
  split at h
  next l' hread =>
    obtain rfl : l' = l := Except.ok.inj h
    rw [Location.read] at hread
    split at hread
    · obtain ⟨offset, -, hread⟩ := bind_eq_ok_iff.mp hread
      obtain ⟨length, -, hread⟩ := bind_eq_ok_iff.mp hread
      obtain ⟨file, -, hread⟩ := bind_eq_ok_iff.mp hread
      exact .inr ⟨offset, length, file, (Except.ok.inj hread).symm⟩
    · exact .inl (Except.ok.inj hread).symm
  next => cases h

/-! ## Declarations -/

lemma isLocated_of_readFunction {f : FunctionDecl} (h : readFunction rooms data node = .ok f) :
    f.IsLocated data := by
  obtain ⟨parameters, -, h⟩ := bind_eq_ok_iff.mp h
  obtain ⟨l, hlocation, h⟩ := bind_eq_ok_iff.mp h
  dsimp only at h
  split at h
  · obtain ⟨body, hbody, h⟩ := bind_eq_ok_iff.mp h
    obtain ⟨l', hl', rfl⟩ := map_eq_ok_iff.mp hbody
    obtain rfl := Except.ok.inj h
    refine ⟨isSpan_of_location hlocation, fun l hl => ?_⟩
    obtain rfl := Option.some.inj hl
    exact isSpan_of_location hl'
  · obtain rfl := Except.ok.inj h
    exact ⟨isSpan_of_location hlocation, fun l hl => nomatch hl⟩

lemma isLocated_of_readMembers {nodes : List Json} {fs : List FunctionDecl}
    {vs : List StateVariable} (h : readMembers rooms data nodes = .ok (fs, vs)) :
    ∀ f ∈ fs, f.IsLocated data := by
  induction nodes generalizing fs vs with
  | nil =>
    obtain ⟨rfl, rfl⟩ := Prod.mk.inj (Except.ok.inj h)
    simp
  | cons node nodes ih =>
    rw [readMembers] at h
    split at h
    · obtain ⟨f, hf, h⟩ := bind_eq_ok_iff.mp h
      obtain ⟨⟨fs', vs'⟩, hrest, h⟩ := bind_eq_ok_iff.mp h
      obtain ⟨rfl, rfl⟩ := Prod.mk.inj (Except.ok.inj h)
      intro g hg
      rcases List.mem_cons.mp hg with rfl | hg
      · exact isLocated_of_readFunction hf
      · exact ih hrest g hg
    · obtain ⟨v, -, h⟩ := bind_eq_ok_iff.mp h
      obtain ⟨⟨fs', vs'⟩, hrest, h⟩ := bind_eq_ok_iff.mp h
      obtain ⟨rfl, rfl⟩ := Prod.mk.inj (Except.ok.inj h)
      exact ih hrest
    · exact ih h

lemma isLocated_of_readContract {c : Contract} (h : readContract rooms data node = .ok c) :
    c.IsLocated data := by
  obtain ⟨⟨fs, vs⟩, hmembers, h⟩ := bind_eq_ok_iff.mp h
  dsimp only at h
  split at h
  all_goals
    obtain ⟨id, -, h⟩ := bind_eq_ok_iff.mp h
    obtain ⟨baseIds, -, h⟩ := bind_eq_ok_iff.mp h
    obtain ⟨l, hlocation, h⟩ := bind_eq_ok_iff.mp h
    obtain rfl := Except.ok.inj h
    exact ⟨isSpan_of_location hlocation, isLocated_of_readMembers hmembers⟩

/-- **What a syntax tree says about a source stands at spans of that source.** -/
theorem isLocated_of_readUnit {source : List Char} {fileName : String} {tree : Json}
    {u : SourceUnit} (h : readUnit rooms source fileName tree = .ok u) :
    ∀ c ∈ u.contracts, c.IsLocated (Utf8.encode source) := by
  rw [readUnit] at h
  split at h
  · obtain rfl := Except.ok.inj h
    simp
  · obtain ⟨contracts, hcontracts, h⟩ := bind_eq_ok_iff.mp h
    obtain rfl := Except.ok.inj h
    intro c hc
    obtain ⟨node, -, hnode⟩ := exists_of_mem_left (mapM_eq_ok_iff.mp hcontracts).flip hc
    exact isLocated_of_readContract hnode

end Tree

/-! ## The contract of an analysis -/

lemma SourceUnit.mem_of_mainContract? {u : SourceUnit} {c : Contract}
    (h : u.mainContract? = some c) : c ∈ u.contracts := by
  have hsource {c : Contract} (hc : c ∈ u.contracts.reverse.filter (·.kind = "contract")) :
      c ∈ u.contracts :=
    List.mem_reverse.mp (List.mem_of_mem_filter hc)
  cases hdeployable : (u.contracts.reverse.filter (·.kind = "contract")).find? (!·.isAbstract) with
  | some c' =>
    rw [mainContract?, hdeployable] at h
    obtain rfl : c' = c := Option.some.inj h
    exact hsource (List.mem_of_find?_eq_some hdeployable)
  | none =>
    rw [mainContract?, hdeployable] at h
    exact hsource (List.mem_of_mem_head? h)

lemma Facts.contract_mem_of_ofUnit {u : SourceUnit} {facts : Facts}
    (h : Facts.ofUnit u = .ok facts) : facts.contract ∈ u.contracts := by
  rw [Facts.ofUnit] at h
  split at h
  · cases h
  next c hc =>
    obtain rfl := Except.ok.inj h
    exact SourceUnit.mem_of_mainContract? hc

lemma Contract.mem_of_constructor? {c : Contract} {f : FunctionDecl}
    (h : c.constructor? = some f) : f ∈ c.functions :=
  List.mem_of_find?_eq_some h

end HoneypotAudit.Solidity
