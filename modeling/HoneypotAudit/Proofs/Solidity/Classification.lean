import HoneypotAudit.Proofs.Solidity.Locations
import Mathlib.Data.List.Nodup
import Mathlib.Logic.Relation

/-!
# Facts from the chain of a contract

What is known about a contract is read off the declarations of the contract and of those of its
bases that the source unit holds.  `SourceUnit.InChain` names these contracts without an order, and
`Facts.Describe` says what the facts mean for them.

Since that is all the facts depend on, a change of the source unit that keeps these contracts and
what they declare also keeps the facts.  `SourceUnit.Change` lists such changes: bases, functions
and state variables in another order, bases that the source unit does not hold, further contracts or
fewer of them.  The main statement is `facts_of_chain`.
-/

namespace HoneypotAudit.Solidity

open HoneypotAudit.Outcome

/-! ## Names in order -/

/-- Adding a name keeps the order. -/
lemma pairwise_addName {name : String} {ns : List String} (h : ns.Pairwise (· < ·)) :
    (addName name ns).Pairwise (· < ·) := by
  induction ns with
  | nil => simp [addName]
  | cons n ns ih =>
    obtain ⟨hn, hns⟩ := List.pairwise_cons.mp h
    rw [addName]
    by_cases hlt : name < n
    · rw [if_pos hlt]
      refine List.pairwise_cons.mpr ⟨?_, h⟩
      intro m hm
      rcases List.mem_cons.mp hm with rfl | hm
      · exact hlt
      · exact String.lt_trans hlt (hn m hm)
    · rw [if_neg hlt]
      by_cases heq : name = n
      · rwa [if_pos heq]
      · rw [if_neg heq]
        refine List.pairwise_cons.mpr ⟨?_, ih hns⟩
        intro m hm
        rcases mem_addName.mp hm with rfl | hm
        · by_contra hle
          exact heq (String.le_antisymm (String.not_lt.mp hle) (String.not_lt.mp hlt))
        · exact hn m hm

lemma pairwise_sortNames (names : List String) : (sortNames names).Pairwise (· < ·) := by
  induction names with
  | nil => exact List.Pairwise.nil
  | cons n ns ih => exact pairwise_addName ih

/-- Names in ascending order are told by which names there are. -/
lemma eq_of_pairwise_of_mem_iff {ns ns' : List String} (h : ns.Pairwise (· < ·))
    (h' : ns'.Pairwise (· < ·)) (hmem : ∀ name, name ∈ ns ↔ name ∈ ns') : ns = ns' := by
  have hne : ∀ {a b : String}, a < b → a ≠ b := by
    rintro a b hab rfl
    exact String.lt_irrefl a hab
  have hperm : ns.Perm ns' :=
    (List.perm_ext_iff_of_nodup (h.imp hne) (h'.imp hne)).mpr hmem
  apply List.Perm.eq_of_pairwise _ h h' hperm
  intro a b _ _ hab hba
  exact absurd hba (String.lt_asymm hab)

/-! ## What a contract declares -/

namespace Contract

/-- A contract offers a name: as a function that can be called from outside, or as a state variable
that is public. -/
def Offers (d : Contract) (name : String) : Prop :=
  (∃ f ∈ d.functions, f.name = name ∧ (f.visibility = .public ∨ f.visibility = .external)) ∨
    ∃ v ∈ d.stateVariables, v.name = name ∧ v.visibility = .public

/-- A contract has a function of a name that cannot be called from outside. -/
def Hides (d : Contract) (name : String) : Prop :=
  name ≠ "" ∧ ∃ f ∈ d.functions, f.name = name ∧
    (f.visibility = .internal ∨ f.visibility = .private)

/-- A contract has a state variable that can change and maps addresses to unsigned integers. -/
def KeepsBalances (d : Contract) : Prop :=
  ∃ v ∈ d.stateVariables, v.mutability = .changing ∧
    ∃ value, v.type = .mapping (.elementary "address") (.elementary value) ∧
      "uint".toList <+: value.toList

/-- Two contracts have the same functions and state variables, in any order. -/
structure SameMembers (c d : Contract) : Prop where
  functions : c.functions.Perm d.functions
  stateVariables : c.stateVariables.Perm d.stateVariables

lemma SameMembers.refl (c : Contract) : c.SameMembers c :=
  ⟨.refl _, .refl _⟩

lemma SameMembers.symm {c d : Contract} (h : c.SameMembers d) : d.SameMembers c :=
  ⟨h.functions.symm, h.stateVariables.symm⟩

section Members

variable {c d : Contract}

lemma SameMembers.offers_iff (h : c.SameMembers d) (name : String) :
    c.Offers name ↔ d.Offers name := by
  simp only [Offers, h.functions.mem_iff, h.stateVariables.mem_iff]

lemma SameMembers.hides_iff (h : c.SameMembers d) (name : String) :
    c.Hides name ↔ d.Hides name := by
  simp only [Hides, h.functions.mem_iff]

lemma SameMembers.keepsBalances_iff (h : c.SameMembers d) :
    c.KeepsBalances ↔ d.KeepsBalances := by
  simp only [KeepsBalances, h.stateVariables.mem_iff]

end Members

end Contract

lemma isBalanceMapping_iff {T : TypeName} :
    isBalanceMapping T = true ↔ ∃ value, T = .mapping (.elementary "address") (.elementary value) ∧
      "uint".toList <+: value.toList := by
  constructor
  · intro h
    unfold isBalanceMapping at h
    split at h
    next key value =>
      obtain ⟨hkey, hvalue⟩ := (Bool.and_eq_true_iff).mp h
      rw [of_decide_eq_true hkey]
      exact ⟨value, rfl, List.isPrefixOf_iff_prefix.mp hvalue⟩
    next => cases h
  · rintro ⟨value, rfl, hvalue⟩
    exact (Bool.and_eq_true_iff).mpr ⟨rfl, List.isPrefixOf_iff_prefix.mpr hvalue⟩

/-! ## Chains -/

namespace SourceUnit

/-- No two contracts of a source unit have the same identifier. -/
def HasDistinctIds (u : SourceUnit) : Prop :=
  (u.contracts.map (·.id)).Nodup

/-- A contract of a source unit is another one, or a base of it. -/
def InChain (u : SourceUnit) (c d : Contract) : Prop :=
  d ∈ u.contracts ∧ (d = c ∨ d.id ∈ c.baseIds)

section Chains

variable {u : SourceUnit} {c d : Contract}

lemma HasDistinctIds.eq_of_id_eq (h : u.HasDistinctIds) (hc : c ∈ u.contracts)
    (hd : d ∈ u.contracts) (hid : c.id = d.id) : c = d :=
  List.inj_on_of_nodup_map h hc hd hid

/-- A contract is found by its identifier. -/
lemma HasDistinctIds.contractOf?_eq_some_iff (h : u.HasDistinctIds) {id : Int} :
    u.contractOf? id = some d ↔ d ∈ u.contracts ∧ d.id = id := by
  constructor
  · intro hfind
    refine ⟨List.mem_reverse.mp (List.mem_of_find?_eq_some hfind), ?_⟩
    simpa using List.find?_some hfind
  · rintro ⟨hd, rfl⟩
    have hsome : (u.contractOf? d.id).isSome = true :=
      List.find?_isSome.mpr ⟨d, List.mem_reverse.mpr hd, by simp⟩
    obtain ⟨e, he⟩ := Option.isSome_iff_exists.mp hsome
    have hid : e.id = d.id := by simpa using List.find?_some he
    rw [he, h.eq_of_id_eq (List.mem_reverse.mp (List.mem_of_find?_eq_some he)) hd hid]

/-- **The chain of a contract**, as it is gone through: the contract and the bases that the source
unit holds. -/
lemma HasDistinctIds.mem_linearized_iff (h : u.HasDistinctIds) (hc : c ∈ u.contracts) :
    d ∈ u.linearized c ↔ u.InChain c d := by
  have hchain : ∀ e,
      e ∈ c.baseIds.filterMap u.contractOf? ↔ e ∈ u.contracts ∧ e.id ∈ c.baseIds := by
    intro e
    simp only [List.mem_filterMap, h.contractOf?_eq_some_iff]
    constructor
    · rintro ⟨id, hid, he, rfl⟩
      exact ⟨he, hid⟩
    · rintro ⟨he, hid⟩
      exact ⟨e.id, hid, he, rfl⟩
  have hcons : d = c ∨ d ∈ u.contracts ∧ d.id ∈ c.baseIds ↔ u.InChain c d := by
    constructor
    · rintro (rfl | ⟨hd, hid⟩)
      · exact ⟨hc, .inl rfl⟩
      · exact ⟨hd, .inr hid⟩
    · rintro ⟨hd, rfl | hid⟩
      · exact .inl rfl
      · exact .inr ⟨hd, hid⟩
  rw [← hcons, ← hchain]
  unfold linearized
  generalize c.baseIds.filterMap u.contractOf? = chain at hchain
  cases chain with
  | nil => simp
  | cons first rest =>
    by_cases hid : first.id = c.id
    · -- the chain begins with the contract itself
      obtain rfl : first = c :=
        h.eq_of_id_eq ((hchain first).mp List.mem_cons_self).1 hc hid
      simp
    · simp [hid]

end Chains

end SourceUnit

/-! ## Facts -/

/-- What facts say about a contract of a source unit: which names its chain offers and hides, and
whether the chain keeps balances. -/
structure Facts.Describe (f : Facts) (u : SourceUnit) (c : Contract) : Prop where
  contract_eq : f.contract = c
  isToken_iff : f.isToken = true ↔ ∀ name ∈ tokenSurface, ∃ d, u.InChain c d ∧ d.Offers name
  isOwnable_iff : f.isOwnable = true ↔ ∀ name ∈ ownableSurface, ∃ d, u.InChain c d ∧ d.Offers name
  hasBalance_iff : f.hasBalance = true ↔ ∃ d, u.InChain c d ∧ d.KeepsBalances
  mem_internalFunctions_iff : ∀ name,
    name ∈ f.internalFunctions ↔ ∃ d, u.InChain c d ∧ d.Hides name
  ascending : f.internalFunctions.Pairwise (· < ·)

lemma isInternal_iff {v : Visibility} :
    v.isInternal = true ↔ v = .internal ∨ v = .private := by
  cases v <;> simp [Visibility.isInternal]

lemma not_isInternal_iff {v : Visibility} :
    v.isInternal = false ↔ v = .public ∨ v = .external := by
  cases v <;> simp [Visibility.isInternal]

/-- The names that a list of contracts offers. -/
lemma mem_callableNames_iff {chain : List Contract} {name : String} (hname : name ≠ "") :
    name ∈ callableNames (chain.flatMap (·.functions)) (chain.flatMap (·.stateVariables)) ↔
      ∃ d ∈ chain, d.Offers name := by
  have hfunction : name ∈ ((chain.flatMap (·.functions)).filter fun f =>
        !f.name.isEmpty && !f.visibility.isInternal).map (·.name) ↔
      ∃ d ∈ chain, ∃ f ∈ d.functions, f.name = name ∧
        (f.visibility = .public ∨ f.visibility = .external) := by
    simp only [List.mem_map, List.mem_filter, List.mem_flatMap, Bool.and_eq_true,
      Bool.not_eq_true', not_isInternal_iff, String.isEmpty_eq_false_iff]
    constructor
    · rintro ⟨f, ⟨⟨d, hd, hf⟩, -, hvisible⟩, rfl⟩
      exact ⟨d, hd, f, hf, rfl, hvisible⟩
    · rintro ⟨d, hd, f, hf, rfl, hvisible⟩
      exact ⟨f, ⟨⟨d, hd, hf⟩, hname, hvisible⟩, rfl⟩
  have hvariable : name ∈ ((chain.flatMap (·.stateVariables)).filter
        (·.visibility = .public)).map (·.name) ↔
      ∃ d ∈ chain, ∃ v ∈ d.stateVariables, v.name = name ∧ v.visibility = .public := by
    simp only [List.mem_map, List.mem_filter, List.mem_flatMap, decide_eq_true_eq]
    constructor
    · rintro ⟨v, ⟨⟨d, hd, hv⟩, hpublic⟩, rfl⟩
      exact ⟨d, hd, v, hv, rfl, hpublic⟩
    · rintro ⟨d, hd, v, hv, rfl, hpublic⟩
      exact ⟨v, ⟨⟨d, hd, hv⟩, hpublic⟩, rfl⟩
  rw [callableNames, List.mem_append, hfunction, hvariable, ← exists_or]
  refine exists_congr fun d => ?_
  rw [Contract.Offers, and_or_left]

/-- All names of a surface can be called if the contracts together offer them. -/
lemma all_contains_callableNames_iff {chain : List Contract} {surface : List String}
    (hsurface : "" ∉ surface) :
    surface.all (callableNames (chain.flatMap (·.functions))
        (chain.flatMap (·.stateVariables))).contains = true ↔
      ∀ name ∈ surface, ∃ d ∈ chain, d.Offers name := by
  rw [List.all_eq_true]
  refine forall_congr' fun name => forall_congr' fun hname => ?_
  rw [List.contains_iff_mem]
  apply mem_callableNames_iff
  rintro rfl
  exact hsurface hname

/-- The names that a list of contracts hides. -/
lemma mem_sortNames_hidden_iff {chain : List Contract} {name : String} :
    name ∈ sortNames (((chain.flatMap (·.functions)).filter fun f =>
        !f.name.isEmpty && f.visibility.isInternal).map (·.name)) ↔
      ∃ d ∈ chain, d.Hides name := by
  simp only [mem_sortNames, List.mem_map, List.mem_filter, List.mem_flatMap, Bool.and_eq_true,
    Bool.not_eq_true', isInternal_iff, String.isEmpty_eq_false_iff]
  constructor
  · rintro ⟨f, ⟨⟨d, hd, hf⟩, hname, hhidden⟩, rfl⟩
    exact ⟨d, hd, hname, f, hf, rfl, hhidden⟩
  · rintro ⟨d, hd, hname, f, hf, rfl, hhidden⟩
    exact ⟨f, ⟨⟨d, hd, hf⟩, hname, hhidden⟩, rfl⟩

lemma any_isBalanceMapping_iff {chain : List Contract} :
    ((chain.flatMap (·.stateVariables)).any fun v =>
        v.mutability = .changing && isBalanceMapping v.type) = true ↔
      ∃ d ∈ chain, d.KeepsBalances := by
  simp only [List.any_eq_true, List.mem_flatMap, Bool.and_eq_true, decide_eq_true_eq,
    isBalanceMapping_iff]
  constructor
  · rintro ⟨v, ⟨d, hd, hv⟩, hchanging, hmapping⟩
    exact ⟨d, hd, v, hv, hchanging, hmapping⟩
  · rintro ⟨d, hd, v, hv, hchanging, hmapping⟩
    exact ⟨v, ⟨d, hd, hv⟩, hchanging, hmapping⟩

/-- **The facts of a source unit describe its main contract.** -/
theorem exists_describe {u : SourceUnit} {c : Contract} (hids : u.HasDistinctIds)
    (hmain : u.mainContract? = some c) : ∃ f, Facts.ofUnit u = .ok f ∧ f.Describe u c := by
  have hmem : ∀ d, d ∈ u.linearized c ↔ u.InChain c d := fun d =>
    hids.mem_linearized_iff (SourceUnit.mem_of_mainContract? hmain)
  have hexists : ∀ P : Contract → Prop, (∃ d ∈ u.linearized c, P d) ↔ ∃ d, u.InChain c d ∧ P d :=
    fun P => exists_congr fun d => and_congr_left fun _ => hmem d
  refine ⟨_, by rw [Facts.ofUnit, hmain], ⟨rfl, ?_, ?_, ?_, ?_, pairwise_sortNames _⟩⟩
  · simp only [← hexists]
    exact all_contains_callableNames_iff (by decide)
  · simp only [← hexists]
    exact all_contains_callableNames_iff (by decide)
  · rw [← hexists]
    exact any_isBalanceMapping_iff
  · intro name
    rw [← hexists]
    exact mem_sortNames_hidden_iff

/-! ## Changes outside the chain -/

/-- A contract in another form that a source unit may have it in: with the same functions, state
variables and bases in another order, where only bases that have one of the identifiers count. -/
structure Contract.Rearranged (ids : List Int) (c d : Contract) : Prop extends c.SameMembers d where
  id_eq : c.id = d.id
  bases : (c.baseIds.filter (· ∈ ids)).Perm (d.baseIds.filter (· ∈ ids))

lemma Contract.Rearranged.symm {ids : List Int} {c d : Contract} (h : c.Rearranged ids d) :
    d.Rearranged ids c :=
  ⟨h.toSameMembers.symm, h.id_eq.symm, h.bases.symm⟩

/-- A base that counts is a base of both forms of a contract. -/
lemma Contract.Rearranged.mem_baseIds_iff {ids : List Int} {c d : Contract}
    (h : c.Rearranged ids d) {id : Int} (hid : id ∈ ids) : id ∈ c.baseIds ↔ id ∈ d.baseIds := by
  have hfilter := h.bases.mem_iff (a := id)
  simpa [hid] using hfilter

namespace SourceUnit

/-- The identifiers of the contracts of a source unit. -/
def ids (u : SourceUnit) : List Int :=
  u.contracts.map (·.id)

/-- A change of a source unit that the chain of a contract does not notice. -/
inductive Change (c : Contract) (u u' : SourceUnit) : Prop
  /-- Contracts are rearranged, each in its place. -/
  | rearrange (h : List.Forall₂ (Contract.Rearranged u.ids) u.contracts u'.contracts)
  /-- A contract comes in that the chain does not have. -/
  | add {before after : List Contract} {d : Contract} (h : u.contracts = before ++ after)
      (h' : u'.contracts = before ++ d :: after) (hid : d.id ≠ c.id) (hbase : d.id ∉ c.baseIds)
  /-- A contract goes away that the chain does not have. -/
  | remove {before after : List Contract} {d : Contract} (h : u.contracts = before ++ d :: after)
      (h' : u'.contracts = before ++ after) (hid : d.id ≠ c.id) (hbase : d.id ∉ c.baseIds)

/-- The chains of two contracts, each in its own source unit, declare the same. -/
structure SameChain (u : SourceUnit) (c : Contract) (u' : SourceUnit) (c' : Contract) : Prop where
  forward : ∀ d, u.InChain c d → ∃ d', u'.InChain c' d' ∧ d.SameMembers d'
  backward : ∀ d', u'.InChain c' d' → ∃ d, u.InChain c d ∧ d.SameMembers d'

lemma SameChain.exists_iff {u u' : SourceUnit} {c c' : Contract} (h : u.SameChain c u' c')
    {P : Contract → Prop} (hP : ∀ d d', d.SameMembers d' → (P d ↔ P d')) :
    (∃ d, u.InChain c d ∧ P d) ↔ ∃ d', u'.InChain c' d' ∧ P d' := by
  constructor
  · rintro ⟨d, hd, hPd⟩
    obtain ⟨d', hd', hsame⟩ := h.forward d hd
    exact ⟨d', hd', (hP d d' hsame).mp hPd⟩
  · rintro ⟨d', hd', hPd'⟩
    obtain ⟨d, hd, hsame⟩ := h.backward d' hd'
    exact ⟨d, hd, (hP d d' hsame).mpr hPd'⟩

section Changes

variable {u u' : SourceUnit} {c c' : Contract}

/-- A contract outside the chain does not matter. -/
lemma inChain_insert_iff {before after : List Contract} {d : Contract}
    (h : u.contracts = before ++ after) (h' : u'.contracts = before ++ d :: after)
    (hid : d.id ≠ c.id) (hbase : d.id ∉ c.baseIds) (e : Contract) :
    u.InChain c e ↔ u'.InChain c e := by
  rw [InChain, InChain, h, h']
  refine and_congr_left fun he => ?_
  have hne : e ≠ d := by
    rintro rfl
    rcases he with rfl | he
    · exact hid rfl
    · exact hbase he
  simp [hne]

lemma ids_eq_of_rearranged {ids : List Int}
    (h : List.Forall₂ (Contract.Rearranged ids) u.contracts u'.contracts) : u.ids = u'.ids := by
  have hids : ∀ {cs ds : List Contract}, List.Forall₂ (Contract.Rearranged ids) cs ds →
      cs.map (·.id) = ds.map (·.id) := by
    intro cs ds hcs
    induction hcs with
    | nil => rfl
    | cons hcd _ ih => rw [List.map_cons, List.map_cons, hcd.id_eq, ih]
  exact hids h

/-- What is in the chain before contracts are rearranged is in it afterwards. -/
lemma exists_inChain_of_rearranged (hids : u'.HasDistinctIds) (hc : c ∈ u.contracts)
    (hc' : c' ∈ u'.contracts) (hid : c.id = c'.id)
    (h : List.Forall₂ (Contract.Rearranged u.ids) u.contracts u'.contracts) {d : Contract}
    (hd : u.InChain c d) : ∃ d', u'.InChain c' d' ∧ d.SameMembers d' := by
  obtain ⟨c'', hc'', hcc''⟩ := exists_of_mem_left h hc
  obtain rfl : c'' = c' := hids.eq_of_id_eq hc'' hc' (hcc''.id_eq.symm.trans hid)
  obtain ⟨hmem, hchain⟩ := hd
  obtain ⟨d', hd', hdd'⟩ := exists_of_mem_left h hmem
  refine ⟨d', ⟨hd', ?_⟩, hdd'.toSameMembers⟩
  rcases hchain with rfl | hbase
  · exact .inl (hids.eq_of_id_eq hd' hc' (hdd'.id_eq.symm.trans hid))
  · right
    rw [← hdd'.id_eq, ← hcc''.mem_baseIds_iff (List.mem_map_of_mem hmem)]
    exact hbase

lemma sameChain_of_rearranged (hids : u.HasDistinctIds) (hids' : u'.HasDistinctIds)
    (hc : c ∈ u.contracts) (hc' : c' ∈ u'.contracts) (hid : c.id = c'.id)
    (h : List.Forall₂ (Contract.Rearranged u.ids) u.contracts u'.contracts) :
    u.SameChain c u' c' := by
  have hflip : List.Forall₂ (Contract.Rearranged u'.ids) u'.contracts u.contracts := by
    rw [← ids_eq_of_rearranged h]
    exact List.Forall₂.flip (h.imp fun _ _ hcd => hcd.symm)
  refine ⟨fun d hd => exists_inChain_of_rearranged hids' hc hc' hid h hd, fun d' hd' => ?_⟩
  obtain ⟨d, hd, hsame⟩ := exists_inChain_of_rearranged hids hc' hc hid.symm hflip hd'
  exact ⟨d, hd, hsame.symm⟩

/-- A source unit is changed into another one that has the same main contract, up to the order of
what it declares. -/
structure Step (u u' : SourceUnit) : Prop where
  distinct : u'.HasDistinctIds
  change : ∃ c c', u.mainContract? = some c ∧ u'.mainContract? = some c' ∧ c.id = c'.id ∧
    u.Change c u'

/-- **A change keeps the chain of the main contract.** -/
lemma sameChain_of_change (hids : u.HasDistinctIds) (hids' : u'.HasDistinctIds)
    (hc : c ∈ u.contracts) (hc' : c' ∈ u'.contracts) (hid : c.id = c'.id) (h : u.Change c u') :
    u.SameChain c u' c' := by
  -- a contract that is in both source units is the same in both
  have hsame : c ∈ u'.contracts → (∀ d, u.InChain c d ↔ u'.InChain c d) → u.SameChain c u' c' := by
    intro hmem hchain
    obtain rfl : c = c' := hids'.eq_of_id_eq hmem hc' hid
    exact ⟨fun d hd => ⟨d, (hchain d).mp hd, .refl d⟩, fun d hd => ⟨d, (hchain d).mpr hd, .refl d⟩⟩
  cases h with
  | rearrange h => exact sameChain_of_rearranged hids hids' hc hc' hid h
  | @add before after d h h' hd hbase =>
    apply hsame
    · rw [h', List.mem_append, List.mem_cons]
      rw [h, List.mem_append] at hc
      exact hc.imp_right .inr
    · exact inChain_insert_iff h h' hd hbase
  | @remove before after d h h' hd hbase =>
    apply hsame
    · have hne : c ≠ d := fun heq => hd (by rw [heq])
      simpa [h, h', hne] using hc
    · exact fun e => (inChain_insert_iff h' h hd hbase e).symm

end Changes

end SourceUnit

/-! ## Facts before and after -/

/-- Two facts say the same, if perhaps of different contracts. -/
structure Facts.Agree (f f' : Facts) : Prop where
  isToken_eq : f.isToken = f'.isToken
  isOwnable_eq : f.isOwnable = f'.isOwnable
  hasBalance_eq : f.hasBalance = f'.hasBalance
  internalFunctions_eq : f.internalFunctions = f'.internalFunctions

namespace Facts

lemma Agree.trans {f f' f'' : Facts} (h : f.Agree f') (h' : f'.Agree f'') : f.Agree f'' :=
  ⟨h.isToken_eq.trans h'.isToken_eq, h.isOwnable_eq.trans h'.isOwnable_eq,
    h.hasBalance_eq.trans h'.hasBalance_eq,
    h.internalFunctions_eq.trans h'.internalFunctions_eq⟩

/-- Facts that describe chains with the same declarations agree. -/
lemma Describe.agree {f f' : Facts} {u u' : SourceUnit} {c c' : Contract} (h : f.Describe u c)
    (h' : f'.Describe u' c') (hchain : u.SameChain c u' c') : f.Agree f' := by
  have hoffers : ∀ name, (∃ d, u.InChain c d ∧ d.Offers name) ↔
      ∃ d, u'.InChain c' d ∧ d.Offers name := fun name =>
    hchain.exists_iff fun _ _ hsame => hsame.offers_iff name
  refine ⟨Bool.eq_iff_iff.mpr ?_, Bool.eq_iff_iff.mpr ?_, Bool.eq_iff_iff.mpr ?_, ?_⟩
  · rw [h.isToken_iff, h'.isToken_iff]
    simp only [hoffers]
  · rw [h.isOwnable_iff, h'.isOwnable_iff]
    simp only [hoffers]
  · rw [h.hasBalance_iff, h'.hasBalance_iff]
    exact hchain.exists_iff fun _ _ hsame => hsame.keepsBalances_iff
  · apply eq_of_pairwise_of_mem_iff h.ascending h'.ascending
    intro name
    rw [h.mem_internalFunctions_iff, h'.mem_internalFunctions_iff]
    exact hchain.exists_iff fun _ _ hsame => hsame.hides_iff name

end Facts

/-- One change keeps the facts. -/
lemma exists_agree_of_step {u u' : SourceUnit} {f : Facts} (hids : u.HasDistinctIds)
    (hf : Facts.ofUnit u = .ok f) (h : u.Step u') :
    ∃ f', Facts.ofUnit u' = .ok f' ∧ f.Agree f' := by
  obtain ⟨c, c', hmain, hmain', hid, hchange⟩ := h.change
  obtain ⟨f₀, hf₀, hdescribe⟩ := exists_describe hids hmain
  obtain rfl : f₀ = f := Except.ok.inj (hf₀.symm.trans hf)
  obtain ⟨f', hf', hdescribe'⟩ := exists_describe h.distinct hmain'
  refine ⟨f', hf', hdescribe.agree hdescribe' ?_⟩
  exact SourceUnit.sameChain_of_change hids h.distinct (SourceUnit.mem_of_mainContract? hmain)
    (SourceUnit.mem_of_mainContract? hmain') hid hchange

/-- **The facts depend on the chain alone.**  A source unit whose contracts have different
identifiers has the facts that describe its main contract, and they stay the same however often the
source unit is changed outside what the chain of that contract declares. -/
theorem facts_of_chain {u : SourceUnit} {c : Contract} (hids : u.HasDistinctIds)
    (hmain : u.mainContract? = some c) :
    ∃ f, Facts.ofUnit u = .ok f ∧ f.Describe u c ∧
      ∀ u', Relation.ReflTransGen SourceUnit.Step u u' →
        ∃ f', Facts.ofUnit u' = .ok f' ∧ f.Agree f' := by
  obtain ⟨f, hf, hdescribe⟩ := exists_describe hids hmain
  refine ⟨f, hf, hdescribe, fun u' hsteps => ?_⟩
  have hrun : u'.HasDistinctIds ∧ ∃ f', Facts.ofUnit u' = .ok f' ∧ f.Agree f' := by
    induction hsteps with
    | refl => exact ⟨hids, f, hf, rfl, rfl, rfl, rfl⟩
    | tail _ hstep ih =>
      obtain ⟨hdistinct, f', hf', hagree⟩ := ih
      obtain ⟨f'', hf'', hagree'⟩ := exists_agree_of_step hdistinct hf' hstep
      exact ⟨hstep.distinct, f'', hf'', hagree.trans hagree'⟩
  exact hrun.2

/-- A base with all that a token offers. -/
def tokenBase : Contract where
  id := 1
  name := "Token"
  functions := [{ name := "transfer" }, { name := "_mint", visibility := .internal }]
  stateVariables :=
    [⟨"totalSupply", .elementary "uint256", .public, .changing, {}⟩,
      ⟨"balanceOf", .mapping (.elementary "address") (.elementary "uint256"), .public, .changing,
        {}⟩]

/-- A library with the names that a contract with an owner offers. -/
def ownerLibrary : Contract where
  id := 3
  name := "Owners"
  kind := "library"
  functions := [{ name := "owner" }, { name := "transferOwnership" }]

/-- A token that declares nothing itself. -/
def inheritingToken (baseIds : List Int) : Contract where
  id := 2
  name := "Meme"
  baseIds := baseIds

/-- A token stays a token without an owner when another base is listed and a library comes in. -/
theorem facts_of_chain_inheritingToken :
    SourceUnit.HasDistinctIds { contracts := [tokenBase, inheritingToken [2, 1]] } ∧
      SourceUnit.mainContract? { contracts := [tokenBase, inheritingToken [2, 1]] }
        = some (inheritingToken [2, 1]) ∧
      ∃ f f', Facts.ofUnit { contracts := [tokenBase, inheritingToken [2, 1]] } = .ok f ∧
        f.isToken = true ∧ f.isOwnable = false ∧ f.internalFunctions = ["_mint"] ∧
        Facts.ofUnit { contracts := [tokenBase, inheritingToken [2, 9, 1], ownerLibrary] }
          = .ok f' ∧
        f.Agree f' := by
  have hids : SourceUnit.HasDistinctIds { contracts := [tokenBase, inheritingToken [2, 1]] } := by
    unfold SourceUnit.HasDistinctIds
    decide +kernel
  have hmain : SourceUnit.mainContract? { contracts := [tokenBase, inheritingToken [2, 1]] }
      = some (inheritingToken [2, 1]) := by decide +kernel
  have hlisted : SourceUnit.Step { contracts := [tokenBase, inheritingToken [2, 1]] }
      { contracts := [tokenBase, inheritingToken [2, 9, 1]] } := by
    have hmeme : (inheritingToken [2, 1]).Rearranged [1, 2] (inheritingToken [2, 9, 1]) :=
      ⟨⟨.refl _, .refl _⟩, rfl, by decide +kernel⟩
    refine ⟨?_, _, inheritingToken [2, 9, 1], hmain, by decide +kernel, rfl,
      .rearrange (.cons ⟨.refl _, rfl, .refl _⟩ (.cons hmeme .nil))⟩
    unfold SourceUnit.HasDistinctIds
    decide +kernel
  have hadded : SourceUnit.Step { contracts := [tokenBase, inheritingToken [2, 9, 1]] }
      { contracts := [tokenBase, inheritingToken [2, 9, 1], ownerLibrary] } := by
    refine ⟨?_, inheritingToken [2, 9, 1], _, by decide +kernel, by decide +kernel, rfl,
      .add (List.append_nil _).symm rfl (by decide) (by decide)⟩
    unfold SourceUnit.HasDistinctIds
    decide +kernel
  obtain ⟨f, hf, -, hkept⟩ := facts_of_chain hids hmain
  obtain ⟨f', hf', hagree⟩ := hkept _ (.tail (.single hlisted) hadded)
  have hfacts : Facts.ofUnit { contracts := [tokenBase, inheritingToken [2, 1]] }
      = .ok { contract := inheritingToken [2, 1], isToken := true, hasBalance := true,
              internalFunctions := ["_mint"] } := by decide +kernel
  obtain rfl := Except.ok.inj (hfacts.symm.trans hf)
  exact ⟨hids, hmain, _, f', hf, rfl, rfl, rfl, hf', hagree⟩

end HoneypotAudit.Solidity
